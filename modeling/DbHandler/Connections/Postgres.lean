import DbHandler.Connections.Wizard
import DbHandler.Foundation.Search
import DbHandler.ServerVersion

namespace DbHandler.Connections.Postgres

open Foundation.Search Foundation.Separators

/-- `t.substr( pos )`, where `none` as a result is the exception for a place behind the end, as `npos` is. -/
def substr (pos : Option ℕ) (t : Text) : Option Text :=
  pos.bind fun n => if n ≤ t.length then some (t.drop n) else none

/-- `t.find( '=' ) + 2`; `npos + 2` is 1. -/
def behindEquals (t : Text) : Option ℕ := some ((find ['='] t).elim 1 (· + 2))

def parseUser (selectedDSN : Text) : Option Text := do
  let temp ← substr (find "user".toList selectedDSN) selectedDSN
  let temp ← substr (find ['='] temp) temp
  let user ← substr (behindEquals temp) temp
  some (before ' ' user)

def parseDbName (selectedDSN : Text) : Option Text := do
  let temp ← substr (find "dbname = ".toList selectedDSN) selectedDSN
  let temp ← substr (behindEquals temp) temp
  some (before ' ' temp)

structure Library where
  connectdb : Text → Option Text
  version : ServerVersion.Postgres.Library
  serverConnect : ℕ × List Text
  createSystemObjectsAndGetDatabaseInfo : ℕ × List Text

structure Database where
  connectToDatabase : Bool
  isConnected : Bool
  connectString : Text
  connectedUser : Text
  dbName : Text
  versions : ServerVersion.Fields
  errorMsg : List Text

inductive Path
  | serverConnect
  | createSystemObjectsAndGetDatabaseInfo
  deriving DecidableEq, Repr

inductive Outcome
  | returns (result : ℕ) (taken : Option Path) (db : Database)
  | throws (db : Database)

def restartMessage : Text := "Problem during connection. Please fix and restart the application".toList

def connect (library : Library) (selectedDSN : Text) (db : Database) : Outcome :=
  let db := { db with
    connectToDatabase := db.connectToDatabase || (find "dbname".toList selectedDSN).isSome
    isConnected := true }
  match library.connectdb selectedDSN with
  | some err =>
    .returns 1 none { db with errorMsg := db.errorMsg ++ ["Connection to database failed: ".toList ++ err] }
  | none =>
    let version := ServerVersion.Postgres.getServerVersion library.version db.versions db.errorMsg
    let db := { db with versions := version.2.1, errorMsg := version.2.2 }
    if version.1 ≠ 0 then .returns version.1 none { db with errorMsg := db.errorMsg ++ [restartMessage] }
    else
      let db := { db with connectString := selectedDSN }
      match parseUser selectedDSN with
      | none => .throws db
      | some user =>
        let db := { db with connectedUser := user }
        if !db.connectToDatabase then
          let db := { db with errorMsg := db.errorMsg ++ library.serverConnect.2 }
          if library.serverConnect.1 ≠ 0 then
            .returns 1 (some .serverConnect) { db with errorMsg := db.errorMsg ++ [restartMessage] }
          else .returns 0 (some .serverConnect) db
        else
          match parseDbName selectedDSN with
          | none => .throws db
          | some dbname =>
            .returns (if library.createSystemObjectsAndGetDatabaseInfo.1 ≠ 0 then 1 else 0)
              (some .createSystemObjectsAndGetDatabaseInfo)
              { db with
                dbName := dbname
                errorMsg := db.errorMsg ++ library.createSystemObjectsAndGetDatabaseInfo.2 }

end DbHandler.Connections.Postgres
