import DbHandler.Odbc.DriverManager

namespace DbHandler.Odbc

open Foundation.Faults Foundation.Journal

variable {δ : Type}

def postgreSQL : Text := "PostgreSQL".toList

def mySQL : Text := "MySQL".toList

def sqlServer : Text := "Microsoft SQL Server".toList

def sybase : Text := "Sybase".toList

def ase : Text := "ASE".toList

def indexQuery (subtype : Text) : Text :=
  if subtype = sqlServer then "SELECT 1 FROM sys.indexes WHERE name = ? AND object_id = OBJECT_ID( ? ) );".toList
  else if subtype = mySQL then
    "SELECT 1 FROM information_schema.statistics WHERE index_name = ? AND table_name = ? AND schema_name = ?;".toList
  else if subtype = postgreSQL then
    "SELECT 1 FROM pg_indexes WHERE indexname = $1 AND tablename = $2 AND schemaname = $3;".toList
  else if subtype = sybase ∨ subtype = ase then
    "SELECT 1 FROM sysindexes ind, sysobjects obj WHERE obj.id = ind.id AND ind.name = ? AND obj.name = ?".toList
  else []

/-- The schema is a third parameter for two servers, and written before the table for the others. -/
def indexParameters (subtype indexName schemaName tableName : Text) : List Request :=
  if subtype = mySQL ∨ subtype = postgreSQL then
    [.bindParameter 1 indexName, .bindParameter 2 tableName, .bindParameter 3 schemaName]
  else [.bindParameter 1 indexName, .bindParameter 2 (schemaName ++ '.' :: tableName)]

def isIndexExists (m : Manager δ) (indexName schemaName tableName : Text) (o : Object δ) :
    Guarded (Bool × Object δ) := do
  let impl ← o.impl
  let (ret, o) := o.allocStatement m
  let (executed, o) ←
    if ret.isOk then
      o.requests m (indexParameters impl.subtype indexName schemaName tableName ++
        [.prepare (indexQuery impl.subtype), .execute])
    else do
      let o ← o.statementError m
      pure (false, o)
  let (found, o) ←
    if executed then do
      let (ret, o) ← o.useStatement m .fetch
      if ret.isOk then pure (true, o)
      else if ret = .noData then pure (false, o)
      else
        let o ← o.statementError m
        pure (false, o)
    else pure (false, o)
  let (ret, o) ← o.freeStatement m
  if ret.isOk then pure (found, { o with hstmt := .null })
  else
    let o ← o.statementError m
    pure (found, o)

/-- The code after the transaction has begun is never reached: no return code is both `SQL_SUCCESS` and
`SQL_SUCCESS_WITH_INFO`. -/
def createIndex (m : Manager δ) (command indexName schemaName tableName : Text) (o : Object δ) :
    Guarded (ℕ × Object δ) := do
  let (ret, o) := o.allocStatement m
  if ret.isOk then
    let (ret, o) ← o.execDirect m .beginTransaction
    if ret ≠ .success ∨ ret ≠ .successWithInfo then
      let o ← o.statementError m
      pure (1, o)
    else
      let (found, o) ← isIndexExists m indexName schemaName tableName o
      if found then pure (1, o.fail (indexAlreadyExists indexName))
      else if o.errorMsg ≠ [] then pure (1, o)
      else
        let (ret, o) ← o.execDirect m (.command command)
        let (result, o) ← if ret.isOk then pure (0, o) else do
          let o ← o.statementError m
          pure (1, o)
        let (ret, o) ← o.execDirect m (if result = 1 then .rollback else .commit)
        let (result, o) ← if ret.isOk then pure (result, o) else do
          let o ← o.statementError m
          pure (1, o)
        let (ret, o) ← o.freeStatement m
        if ret.isOk then pure (result, { o with hstmt := .null })
        else
          let o ← o.statementError m
          pure (1, o)
  else pure (0, o)

end DbHandler.Odbc
