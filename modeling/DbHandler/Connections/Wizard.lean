import DbHandler.Client
import DbHandler.Foundation.Decimal

namespace DbHandler.Connections

def upToNul (value : Text) : Text := value.takeWhile (· ≠ Char.ofNat 0)

def entry (key value : Text) : Text := key ++ '=' :: (value ++ [' '])

def entryIf (key value : Text) : Text := if value = [] then [] else entry key value

structure MySQLConnect where
  host : Text
  port : Text
  userID : Text
  password : Text
  dbName : Text
  socket : Text
  flags : BitVec 32
  options : Text

/-- `DatabaseType::OnConnect` for MySQL. -/
def MySQLConnect.onConnect (page : MySQLConnect) : Text :=
  entry "host".toList (if page.host = [] then "localhost".toList else page.host) ++
  (entry "port".toList (if page.port = [] then digits 3306 else page.port) ++
  (entry "user".toList page.userID ++
  (entry "password".toList page.password ++
  (entryIf "dbname".toList page.dbName ++
  (entryIf "socket".toList page.socket ++
  ((if page.flags = 0 then [] else entry "flags".toList (digits page.flags.toInt)) ++
  page.options))))))

structure MySQLAdvanced where
  expPass : Bool
  clientCompress : Bool
  foundRows : Bool
  ignoreSigPipe : Bool
  ignoreSpace : Bool
  interactive : Bool
  localFiles : Bool
  multiResults : Bool
  multiStat : Bool
  noSchema : Bool
  odbc : Bool
  ssl : Bool
  remember : Bool
  defaultAuth : Text
  clearText : Bool
  initCommand : Text
  optBind : Text
  handleExpiredPass : Bool
  optCompress : Bool
  connectAttrDelete : Text

namespace MySQLAdvanced

def flagBoxes (dlg : MySQLAdvanced) : List (Bool × BitVec 32) :=
  [(dlg.expPass, 1), (dlg.clientCompress, 2), (dlg.foundRows, 4), (dlg.ignoreSigPipe, 8), (dlg.ignoreSpace, 16),
    (dlg.interactive, 32), (dlg.localFiles, 64), (dlg.multiResults, 128), (dlg.multiStat, 256), (dlg.noSchema, 512),
    (dlg.odbc, 1024), (dlg.ssl, 2048), (dlg.remember, 4096)]

def entries (dlg : MySQLAdvanced) : List (Text × Text) :=
  (if dlg.defaultAuth = [] then [] else [("MYSQL_DEFAULT_AUTH".toList, dlg.defaultAuth)]) ++
  ((if dlg.clearText then [("MYSQL_ENABLE_CLEARTEXT_PLUGIN".toList, ['1'])] else []) ++
  ((if dlg.initCommand = [] then [] else [("MYSQL_INIT_COMMAND".toList, dlg.initCommand)]) ++
  ((if dlg.optBind = [] then [] else [("MYSQL_OPT_BIND".toList, dlg.optBind)]) ++
  ((if dlg.handleExpiredPass then [("MYSQL_OPT_CAN_HANDLE_EXPIRED_PASSWORD".toList, ['1'])] else []) ++
  ((if dlg.optCompress then [("MYSQL_OPT_COMPRESS".toList, ['0'])] else []) ++
  (if dlg.connectAttrDelete = [] then [] else [("MYSQL_OPT_CONNECT_ATTR_DELETE".toList, dlg.connectAttrDelete)]))))))

end MySQLAdvanced

/-- `mySQLConnect::OnAdvanced` where the dialog is left by OK. -/
def MySQLConnect.onAdvanced (dlg : MySQLAdvanced) (page : MySQLConnect) : MySQLConnect :=
  { page with
    flags := dlg.flagBoxes.foldl (fun flags box => if box.1 then flags ||| box.2 else flags) page.flags
    options := page.options ++ dlg.entries.flatMap fun e => entry e.1 e.2 }

/-- What the wizard's page for PostgreSQL has; `connStr` is what the string was before. -/
structure PostgresConnect where
  host : Text
  hostAddr : Text
  port : Text
  userID : Text
  password : Text
  dbName : Text
  timeout : ℤ
  connStr : Text

def spacedEntry (key value : Text) : Text := key ++ " = ".toList ++ (value ++ [' '])

/-- `DatabaseType::OnConnect` for PostgreSQL. -/
def PostgresConnect.onConnect (page : PostgresConnect) : Text :=
  (if page.host = [] then page.connStr else spacedEntry "host".toList page.host) ++
  ((if page.hostAddr = [] then [] else spacedEntry "hostaddr".toList page.hostAddr) ++
  (spacedEntry "port".toList (if page.port = [] then digits 5432 else page.port) ++
  (spacedEntry "user".toList page.userID ++
  (spacedEntry "password".toList page.password ++
  ((if page.dbName = [] then [] else spacedEntry "dbname".toList page.dbName) ++
  spacedEntry "connect_timeout".toList (digits page.timeout))))))

theorem digits_natCast (n : ℕ) : digits n = Nat.toDigits 10 n := by
  simp [digits, Int.toString_eq_repr, Int.repr, Nat.repr_eq_ofList_toDigits]

theorem digits_negSucc (n : ℕ) : digits (Int.negSucc n) = '-' :: Nat.toDigits 10 (n + 1) := by
  simp [digits, Int.toString_eq_repr, Int.repr, Nat.repr_eq_ofList_toDigits]

theorem not_mem_digits {c : Char} (hc : c.isDigit = false) (hsign : c ≠ '-') (n : ℤ) : c ∉ digits n := by
  cases n with
  | ofNat n =>
    rw [Int.ofNat_eq_natCast, digits_natCast]
    exact Foundation.Decimal.not_mem_toDigits hc n
  | negSucc n =>
    rw [digits_negSucc, List.mem_cons, not_or]
    exact ⟨hsign, Foundation.Decimal.not_mem_toDigits hc (n + 1)⟩

end DbHandler.Connections
