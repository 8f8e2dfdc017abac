import DbHandler.Connections.Wizard
import DbHandler.Foundation.Decimal
import DbHandler.Foundation.Encoding
import DbHandler.Foundation.Separators

namespace DbHandler.Connections.MySQL

open Foundation.Decimal Foundation.Encoding Foundation.Separators

inductive MysqlOption
  | optConnectTimeout
  | optCompress
  | initCommand
  | defaultAuth
  | optBind
  | optConnectAttrDelete
  | enableCleartextPlugin
  | optCanHandleExpiredPasswords
  | optSslMode
  deriving DecidableEq, Repr

def MysqlOption.value : MysqlOption → ℕ
  | .optConnectTimeout => 0
  | .optCompress => 1
  | .initCommand => 3
  | .defaultAuth => 23
  | .optBind => 24
  | .optConnectAttrDelete => 34
  | .enableCleartextPlugin => 36
  | .optCanHandleExpiredPasswords => 37
  | .optSslMode => 42

abbrev Call := MysqlOption × Bytes

/-- `mysql_options` on a handle: `none` is 0, otherwise the text of `mysql_error`. -/
abbrev MysqlOptions (δ : Type) := δ → Call → Option Text × δ

/-- The fields of `MySQLDatabase` that the connection string fills, with the calls made so far. -/
structure Connection (δ : Type) where
  db : δ
  host : Text
  user : Text
  password : Text
  dbName : Text
  socket : Text
  port : ℤ
  flags : BitVec 32
  connectToDatabase : Bool
  calls : List Call
  errorMsg : List Text

def clientFlags : List (BitVec 32 × BitVec 32) :=
  [(1, 1 <<< 22), (2, 32), (4, 2), (8, 4096), (16, 256), (32, 1024), (64, 128), (128, 1 <<< 17), (256, 1 <<< 16),
    (512, 16), (1024, 64), (2048, 2048), (4096, 1 <<< 31)]

def addFlags (given : BitVec 32) (flags : BitVec 32) : BitVec 32 :=
  clientFlags.foldl (fun flags f => if given &&& f.1 = 0 then flags else flags ||| f.2) flags

/-- An unknown key is taken for `MYSQL_DEFAULT_AUTH`. -/
def optionNamed (key : Text) : MysqlOption :=
  if key = "MYSQL_DEFAULT_AUTH".toList then .defaultAuth
  else if key = "MYSQL_ENABLE_CLEARTEXT_PLUGIN".toList then .enableCleartextPlugin
  else if key = "MYSQL_INIT_COMMAND".toList then .initCommand
  else if key = "MYSQL_OPT_BIND".toList then .optBind
  else if key = "MYSQL_OPT_CAN_HANDLE_EXPIRED_PASSWORDS".toList then .optCanHandleExpiredPasswords
  else if key = "MYSQL_OPT_COMPRESS".toList then .optCompress
  else if key = "MYSQL_OPT_CONNECT_ATTR_DELETE".toList then .optConnectAttrDelete
  else .defaultAuth

inductive Control (δ : Type)
  | goesOn (c : Connection δ)
  | breaks (c : Connection δ)
  | throws (c : Connection δ)

inductive Outcome (δ : Type)
  | returns (result : ℕ) (c : Connection δ)
  | throws (c : Connection δ)

def Outcome.connection {δ : Type} : Outcome δ → Connection δ
  | .returns _ c => c
  | .throws c => c

section Tokenizer

variable {δ : Type} (mysqlOptions : MysqlOptions δ)

def setOption (option : MysqlOption) (value : Text) (c : Connection δ) : Control δ :=
  if MysqlOption.optConnectTimeout.value ≤ option.value ∧ option.value ≤ MysqlOption.optSslMode.value then
    let call : Call := (option, utf8 (upToNul value))
    let answer := mysqlOptions c.db call
    let c := { c with db := answer.2, calls := c.calls ++ [call] }
    match answer.1 with
    | none => .goesOn c
    | some err => .breaks { c with errorMsg := c.errorMsg ++ [err] }
  else .goesOn c

def takeEntry (key value : Text) (c : Connection δ) : Control δ :=
  if key = "host".toList then .goesOn { c with host := value }
  else if key = "user".toList then .goesOn { c with user := value }
  else if key = "password".toList then .goesOn { c with password := value }
  else if key = "port".toList then
    match stoi value with
    | some port => .goesOn { c with port := port }
    | none => .throws c
  else if key = "dbname".toList then .goesOn { c with dbName := value, connectToDatabase := true }
  else if key = "socket".toList then .goesOn { c with socket := value }
  else if key = "flags".toList then
    match stoi value with
    | some given => .goesOn { c with flags := addFlags (BitVec.ofInt 32 given) c.flags }
    | none => .throws c
  else setOption mysqlOptions (optionNamed key) value c

/-- The loop of `TokenizeConnectionString`; `none` where it takes more turns than `fuel`. -/
def tokenizeConnectionString : ℕ → Text → Connection δ → Option (Outcome δ)
  | 0, _, _ => none
  | fuel + 1, tmp, c =>
    if tmp = [] then some (.returns 0 c)
    else
      let temp := before ' ' tmp
      match takeEntry mysqlOptions (before '=' temp) (after '=' temp) c with
      | .goesOn c => tokenizeConnectionString fuel (after ' ' tmp) c
      | .breaks c => some (.returns 1 c)
      | .throws c => some (.throws c)

end Tokenizer

end DbHandler.Connections.MySQL
