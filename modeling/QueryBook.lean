import QueryBook.Main
import QueryBook.Proofs.Code.Scaffolding
import QueryBook.Proofs.Column.Consumption
import QueryBook.Proofs.Column.Misfits
import QueryBook.Proofs.Grammar.RoundTrip
import QueryBook.Proofs.Grammar.Tiling
import QueryBook.Proofs.Grammar.Viable
import QueryBook.Proofs.Query.Violations
import QueryBook.Proofs.Session.Iteration
import QueryBook.Proofs.Session.Operations
import QueryBook.Proofs.Session.RowFunctions
import QueryBook.Proofs.Session.StatementNames
import QueryBook.Proofs.Setup.EntryPoint
import QueryBook.Proofs.Setup.Order
import QueryBook.Proofs.Statement.Regions
import QueryBook.Proofs.Statement.Settled
