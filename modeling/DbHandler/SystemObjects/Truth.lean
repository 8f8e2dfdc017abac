import DbHandler.SystemObjects.MySQLTruth
import DbHandler.SystemObjects.PostgresTruth

namespace DbHandler.SystemObjects

open Postgres.SystemObjects (Version)

inductive Server
  | postgres (v : Version)
  | mySQL
  deriving DecidableEq, Repr

def createSystemObjectsAndGetDatabaseInfo (server : Server) (a : Assignment) (errorMsg : List Text) :
    Option (ℕ × Connection) :=
  match server with
  | .postgres v => some (Postgres.SystemObjects.createSystemObjectsAndGetDatabaseInfo a v errorMsg)
  | .mySQL => MySQL.SystemObjects.createSystemObjectsAndGetDatabaseInfo a errorMsg

def Truthful (server : Server) (a : Assignment) (errorMsg : List Text) : Prop :=
  match server with
  | .postgres v => PostgresTruthful a v
  | .mySQL => MySQLTruthful a errorMsg

def columnsRefused : Assignment where
  failure c := if c = .create (.table .abcatcol) then some "permission denied for schema public".toList else none
  existed _ := false

end DbHandler.SystemObjects
