import CheckedSql.Execution.Read
import CheckedSql.Execution.Write
import CheckedSql.Inspect
import CheckedSql.Monitor.LogRecord
import CheckedSql.Proofs.Draft
import CheckedSql.Proofs.Execution.Batch
import CheckedSql.Proofs.Execution.Bound
import CheckedSql.Proofs.Execution.Cells
import CheckedSql.Proofs.Execution.Failures
import CheckedSql.Proofs.Execution.InsertReturning
import CheckedSql.Proofs.Execution.KeyOnly
import CheckedSql.Proofs.Execution.Outcome
import CheckedSql.Proofs.Execution.Strategies
import CheckedSql.Proofs.Execution.Values
import CheckedSql.Proofs.Monitor.Tree
import CheckedSql.Proofs.Query.Bounds
import CheckedSql.Proofs.Query.Filters
import CheckedSql.Proofs.Query.Mutation
import CheckedSql.Proofs.Query.Ordering
import CheckedSql.Proofs.Query.Rearranged
import CheckedSql.Proofs.Query.Text
import CheckedSql.Proofs.Query.Writable
import CheckedSql.Proofs.Statement.Acceptance
import CheckedSql.Proofs.Statement.OperandValues
import CheckedSql.Proofs.Statement.Placeholder
import CheckedSql.Proofs.Statement.ReadStatement
import CheckedSql.Proofs.Text.Clip
import CheckedSql.Proofs.Vocabulary
