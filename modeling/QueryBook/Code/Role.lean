/-!
# Names of generated definitions

The name of a generated definition is a fixed beginning for its role, followed by the query name.
So role and query alone decide it.
-/

namespace QueryBook

/-- What a generated definition is for. -/
inductive Role where
  | sql | outputs | prepare | prepareCached | execute | executePrepared | queryRow
  | queue | queuePrepared | queueOne | queueOnePrepared | queueOpt | queueOptPrepared
  | fromRow | statement | cachedStatement | statementOps | test | testSetup
deriving DecidableEq, Repr

namespace Role

/-- The beginning of the names in a role. -/
def lead : Role → String
  | sql => "SQL_"
  | outputs => "OUTPUTS_"
  | prepare => "prepare_"
  | prepareCached => "prepare_cached_"
  | execute => "execute_"
  | executePrepared => "execute_prepared_"
  | queryRow => "query_row_"
  | queue => "queue_"
  | queuePrepared => "queue_prepared_"
  | queueOne => "queue_one_"
  | queueOnePrepared => "queue_one_prepared_"
  | queueOpt => "queue_opt_"
  | queueOptPrepared => "queue_opt_prepared_"
  | fromRow => "from_row_"
  | statement => "Statement_"
  | cachedStatement => "CachedStatement_"
  | statementOps => "_StatementOps_"
  | test => "auto_"
  | testSetup => "testsetup_"

/-- The name of the definition of a query in a role. -/
def ident (role : Role) (query : String) : String := role.lead ++ query

end Role

end QueryBook
