import DbHandler.MySQL.SystemObjects
import DbHandler.Odbc.Indexes

namespace DbHandler.Odbc

def access : Text := "ACCESS".toList

def sqlAnywhere : Text := "Sybase SQL Anywhere".toList

def oracle : Text := "Oracle".toList

/-- The values of `m_subtype` that the code has statements for, and all others. -/
inductive Server
  | sqlServer
  | access
  | mySQL
  | postgreSQL
  | sybase
  | ase
  | sqlAnywhere
  | oracle
  | other
  deriving DecidableEq, Repr

def Server.ofSubtype (subtype : Text) : Server :=
  if subtype = Odbc.sqlServer then .sqlServer
  else if subtype = Odbc.access then .access
  else if subtype = Odbc.mySQL then .mySQL
  else if subtype = Odbc.postgreSQL then .postgreSQL
  else if subtype = Odbc.sybase then .sybase
  else if subtype = Odbc.ase then .ase
  else if subtype = Odbc.sqlAnywhere then .sqlAnywhere
  else if subtype = Odbc.oracle then .oracle
  else .other

/-- What a server does when it executes a statement: `ensure` creates what is not there, `create` is refused
for what is there, `find` answers with rows, and `offer` looks for an object and only returns a text. -/
inductive Effect
  | ensure (o : SystemObject)
  | create (o : SystemObject)
  | find (o : SystemObject)
  | offer (o : SystemObject)
  deriving DecidableEq, Repr

structure SystemStatement where
  text : Text
  effect : Effect
  deriving DecidableEq, Repr

namespace SystemStatement

def quote (t : Text) : Text := '\'' :: t ++ ['\'']

section SqlServer

def sqlServerLayout : Layout := ⟨"varchar".toList, false, Layout.integer, true, [' ']⟩

def sqlServerTable (t : SystemTable) : SystemStatement :=
  ⟨"IF NOT EXISTS (SELECT * FROM sysobjects WHERE name=".toList ++ quote t.name ++ " AND xtype='U') CREATE TABLE ".toList ++
    SystemIndex.quoted t.name ++ t.body sqlServerLayout ++ [';'], .ensure (.table t)⟩

def sqlServerIndex (i : SystemIndex) : SystemStatement :=
  ⟨"IF NOT EXISTS (SELECT * FROM sys.indexes WHERE name=".toList ++ quote i.name ++ " AND object_id = OBJECT_ID(".toList ++
    quote i.table.name ++ ")) CREATE INDEX ".toList ++ i.definition SystemIndex.quoted ++ [';'], .ensure (.index i)⟩

end SqlServer

def layout : Layout := MySQL.SystemObjects.layout

def accessFind (t : SystemTable) : SystemStatement :=
  ⟨"SELECT name FROM MSysObjects WHERE type IN (1, 4, 6) AND name = ".toList ++ quote t.name ++ [';'], .find (.table t)⟩

def createTable (t : SystemTable) : SystemStatement :=
  ⟨"CREATE TABLE ".toList ++ t.name ++ t.body layout ++ [';'], .create (.table t)⟩

def ensureTable (t : SystemTable) : SystemStatement :=
  ⟨"CREATE TABLE IF NOT EXISTS ".toList ++ t.name ++ t.body layout ++ [';'], .ensure (.table t)⟩

/-- The table of the second index is misspelt. -/
def mySQLIndexTable : SystemIndex → Text
  | .abcattbl_tnam_ownr => "abcattbl".toList
  | .abcatcol_tnam_ownr_cnam => "abcatcoll".toList

/-- A SELECT whose result is the text of a statement. -/
def mySQLIndex (i : SystemIndex) : SystemStatement :=
  ⟨"SELECT( IF( ( SELECT 1 FROM information_schema.statistics WHERE index_name=".toList ++ quote i.name ++
    " AND table_name=".toList ++ quote i.table.name ++ " ) > 0, \"SELECT 0\", \"CREATE INDEX ".toList ++ i.name ++
    " ON ".toList ++ mySQLIndexTable i ++ '(' ::
    Layout.separated (i.table.key.map fun column => column ++ " ASC".toList) ++ ")\"));".toList, .offer (.index i)⟩

section PostgreSQL

def postgresIndex (i : SystemIndex) : SystemStatement :=
  ⟨"CREATE INDEX IF NOT EXISTS ".toList ++ i.definition SystemIndex.quoted ++ [';'], .ensure (.index i)⟩

def afterCreateIndex : SystemIndex → Text
  | .abcattbl_tnam_ownr => "  ".toList
  | .abcatcol_tnam_ownr_cnam => " ".toList

def inPublic (i : SystemIndex) : Text :=
  "SELECT 1 FROM pg_class c, pg_namespace n WHERE n.oid = c.relnamespace AND c.relname = ".toList ++ quote i.name ++
    " AND n.nspname = 'public'".toList

def postgresBlock (i : SystemIndex) : SystemStatement :=
  ⟨"DO $$ BEGIN IF NOT EXISTS( ".toList ++ inPublic i ++ " ) THEN CREATE INDEX".toList ++ afterCreateIndex i ++
    i.definition SystemIndex.quoted ++ "; END IF; END;".toList, .ensure (.index i)⟩

def postgresFind (i : SystemIndex) : SystemStatement :=
  ⟨inPublic i ++ (if i = .abcattbl_tnam_ownr then [';'] else []), .find (.index i)⟩

def postgresCreate (i : SystemIndex) : SystemStatement :=
  ⟨"CREATE INDEX".toList ++ afterCreateIndex i ++ i.definition SystemIndex.quoted ++ [';'], .create (.index i)⟩

end PostgreSQL

section Sybase

def sybaseLayout : Layout := ⟨Layout.char, false, Layout.sized Layout.char 1, false, ", ".toList⟩

def sybaseTable (t : SystemTable) : SystemStatement :=
  ⟨"IF NOT EXISTS(SELECT 1 FROM sysobjects WHERE name = ".toList ++ quote t.name ++
    " AND type = 'U') EXECUTE(\"CREATE TABLE ".toList ++ t.name ++ t.body sybaseLayout ++ "\")".toList, .ensure (.table t)⟩

def sybaseIndex (i : SystemIndex) : SystemStatement :=
  ⟨"IF NOT EXISTS(SELECT o.name, i.name FROM sysobjects o, sysindexes i WHERE o.id = i.id AND o.name=".toList ++
    quote i.table.name ++ " AND i.name=".toList ++ quote i.name ++ ") EXECUTE(\"CREATE INDEX ".toList ++
    i.definition id ++ "\")".toList, .ensure (.index i)⟩

end Sybase

section SqlAnywhere

def anywhereLayout : Layout := ⟨Layout.char, false, Layout.sized Layout.char 1, true, ", ".toList⟩

def anywhereEnsureTable (t : SystemTable) : SystemStatement :=
  ⟨"CREATE TABLE IF NOT EXISTS ".toList ++ t.name ++ t.body anywhereLayout, .ensure (.table t)⟩

def anywhereEnsureIndex (i : SystemIndex) : SystemStatement :=
  ⟨"CREATE INDEX IF NOT EXISTS ".toList ++ i.definition id, .ensure (.index i)⟩

def anywhereFindTable (t : SystemTable) : SystemStatement :=
  ⟨"SELECT 1 FROM dbo.sysobjects WHERE name = ".toList ++ quote t.name, .find (.table t)⟩

def anywhereCreateTable (t : SystemTable) : SystemStatement :=
  ⟨"CREATE TABLE ".toList ++ t.name ++ t.body anywhereLayout, .create (.table t)⟩

def anywhereFindIndex (i : SystemIndex) : SystemStatement :=
  ⟨"SELECT 1 FROM dbo.sysobjects o, dbo.sysindexes i WHERE o.id = i.id AND o.name = ".toList ++ quote i.table.name ++
    " AND i.name = ".toList ++ quote i.name, .find (.index i)⟩

def anywhereCreateIndex (i : SystemIndex) : SystemStatement :=
  ⟨"CREATE INDEX ".toList ++ i.definition id, .create (.index i)⟩

end SqlAnywhere

section Oracle

def oracleFindTable (t : SystemTable) : SystemStatement :=
  ⟨"SELECT 1 FROM all_objects WHERE object_name = UPPER( ".toList ++ quote t.name ++ " )".toList, .find (.table t)⟩

def oracleFindIndex (i : SystemIndex) : SystemStatement :=
  ⟨"SELECT 1 FROM all_indexes WHERE table_name = UPPER( ".toList ++ quote i.table.name ++
    " ) AND index_name = UPPER( ".toList ++ quote i.name ++ " );".toList, .find (.index i)⟩

def oracleCreateIndex (i : SystemIndex) : SystemStatement :=
  ⟨"CREATE INDEX ".toList ++ i.name ++ " ON ".toList ++ i.table.name ++ '(' :: Layout.separated i.table.key ++
    ");".toList, .create (.index i)⟩

end Oracle

end SystemStatement

open SystemStatement

def tableQueries (table : SystemTable → SystemStatement) : ℕ → Option SystemStatement
  | 1 => some (table .abcatcol)
  | 2 => some (table .abcatedt)
  | 3 => some (table .abcatfmt)
  | 4 => some (table .abcattbl)
  | 5 => some (table .abcatvld)
  | _ => none

def textQueries (table : SystemTable → SystemStatement) (index : SystemIndex → SystemStatement) :
    ℕ → Option SystemStatement
  | 6 => some (index .abcattbl_tnam_ownr)
  | 7 => some (index .abcatcol_tnam_ownr_cnam)
  | n => tableQueries table n

def pairQueries (find create : SystemTable → SystemStatement) : ℕ → Option SystemStatement
  | 1 => some (find .abcatcol)
  | 2 => some (create .abcatcol)
  | 3 => some (find .abcatedt)
  | 4 => some (create .abcatedt)
  | 5 => some (find .abcatfmt)
  | 6 => some (create .abcatfmt)
  | 7 => some (find .abcattbl)
  | 8 => some (create .abcattbl)
  | 9 => some (find .abcatvld)
  | 10 => some (create .abcatvld)
  | _ => none

/-- `query1` to `query14` as the subtype and the version leave them; `none` is the empty string. -/
def queries (server : Server) (versionMajor versionMinor : ℕ) : ℕ → Option SystemStatement :=
  match server with
  | .sqlServer => textQueries sqlServerTable sqlServerIndex
  | .access => fun n => if n ≤ 4 then pairQueries accessFind createTable n else none
  | .mySQL => textQueries ensureTable mySQLIndex
  | .postgreSQL =>
    textQueries ensureTable (if versionMajor ≥ 9 ∧ versionMinor ≥ 5 then postgresIndex else postgresBlock)
  | .sybase | .ase => textQueries sybaseTable sybaseIndex
  | .sqlAnywhere =>
    if versionMajor ≥ 12 then textQueries anywhereEnsureTable anywhereEnsureIndex
    else fun
      | 11 => some (anywhereFindIndex .abcattbl_tnam_ownr)
      | 12 => some (anywhereCreateIndex .abcattbl_tnam_ownr)
      | 13 => some (anywhereFindIndex .abcatcol_tnam_ownr_cnam)
      | 14 => some (anywhereCreateIndex .abcatcol_tnam_ownr_cnam)
      | n => pairQueries anywhereFindTable anywhereCreateTable n
  | .oracle => fun
    | 11 => some (oracleFindIndex .abcattbl_tnam_ownr)
    | 12 => some (oracleCreateIndex .abcattbl_tnam_ownr)
    | n => pairQueries oracleFindTable createTable n
  | .other => fun _ => none

end DbHandler.Odbc
