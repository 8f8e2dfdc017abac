import Mathlib.Data.Char
import Mathlib.Data.List.Flatten
import Mathlib.Data.List.Lex
import DbHandler.Interface

namespace DbHandler.Catalog

open Foundation

inductive Object
  | tableField (address : ℕ)
  | fkField (address : ℕ)
  | databaseTable (address : ℕ)
  deriving DecidableEq, Repr

structure Table where
  address : ℕ
  schemaName : Text
  tableName : Text
  tableFields : List ℕ
  foreignKeys : OrderedMap ℕ (List ℕ)

def Table.deleteFields (t : Table) : List Object := t.tableFields.map .tableField

def Table.deleteForeignKeys (t : Table) : List Object := t.foreignKeys.values.flatten.map .fkField

/-- `delete` of a table: the destructor deletes the fields and the foreign keys. -/
def Table.delete (t : Table) : List Object := t.deleteFields ++ t.deleteForeignKeys ++ [.databaseTable t.address]

/-- Of `Database::Impl` the catalog; no object has two owners. -/
structure Impl where
  tables : OrderedMap Text (List Table)
  tableNames : List Text
  dbName : Text
  owned : (tables.values.flatten.flatMap Table.delete).Nodup

structure Removal where
  deleted : List Object
  impl : Impl

def Impl.withTables (s : Impl) (tables : OrderedMap Text (List Table)) (tableNames : List Text)
    (h : tables.values.flatten.Sublist s.tables.values.flatten) : Impl where
  tables := tables
  tableNames := tableNames
  dbName := s.dbName
  owned := s.owned.sublist (h.flatMap Table.delete)

namespace SQLite

/-- One table of the loop: the fields and keys through copies of the vector and the map, then the table. -/
def deleteTable (t : Table) : List Object := t.deleteFields ++ t.deleteForeignKeys ++ t.delete

/-- `AddDropTable` with `tableAdded = false`; `catalog` is `m_catalog`, the arguments for the catalog and the
schema have no names. -/
def dropTable (catalog tableName : Text) (s : Impl) : Removal where
  deleted := ((s.tables.under catalog).filter fun t => t.tableName = tableName).flatMap deleteTable
  impl := s.withTables (s.tables.revise catalog fun ts => ts.filter fun t => t.tableName ≠ tableName)
    (s.tableNames.filter (· ≠ tableName))
    (OrderedMap.values_revise_sublist (fun _ => List.filter_sublist) s.tables)

end SQLite

namespace ODBC

/-- `AddDropTable` with `tableAdded = false`: tables are deleted through a copy of each vector, and each vector is
cleared. -/
def dropTable (tableName : Text) (s : Impl) : Removal where
  deleted := (s.tables.values.flatten.filter fun t => t.tableName = tableName).flatMap Table.delete
  impl := s.withTables s.tables.clearLists (s.tableNames.filter (· ≠ tableName)) (by simp)

def storedName (subtype schemaName tableName : Text) : Text :=
  if subtype = "Microsoft SQL Server".toList ∧ schemaName = "sys".toList then schemaName ++ '.' :: tableName
  else tableName

def storedCatalog (s : Impl) (catalog : Text) : Text := if catalog = [] then s.dbName else catalog

end ODBC

end DbHandler.Catalog
