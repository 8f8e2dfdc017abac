import DbHandler.Connections.OdbcRoundTrip
import DbHandler.Odbc.DataSources

namespace DbHandler.Odbc.NameBuffers

open Foundation.Separators Connections Connections.ODBC

/-- `memory` is `none` once a write has left the space; `strayed`: one of `uc_to_str_cpy` has. -/
structure Buffer where
  memory : Option (List UInt16)
  strayed : Bool
  deriving DecidableEq, Repr

/-- `none` where there is no terminator to read up to. -/
def Buffer.text (b : Buffer) : Option (List UInt16) := (b.memory.filter fun m => 0 ∈ m).map sqlString

def Buffer.ucToStrCpy (dest : Buffer) (src : Text) : Buffer :=
  match dest.memory.bind fun m => ODBC.ucToStrCpy m src with
  | some m => { dest with memory := some m }
  | none => ⟨none, true⟩

def Buffer.copyUcToUc (dest src : Buffer) : Buffer :=
  { dest with memory := dest.memory.bind fun m => (src.memory.filter fun m => 0 ∈ m).bind (ODBC.copyUcToUc m) }

/-- What the `i`-th allocation finds in its memory. -/
abbrev Heap := ℕ → ℕ → UInt16

/-- `n` counts bytes, of which the lower one of a unit comes first. -/
def memset (value : UInt8) : ℕ → List UInt16 → List UInt16
  | n + 2, _ :: m => (value.toUInt16 ||| value.toUInt16 <<< 8) :: memset value n m
  | 1, u :: m => (u &&& 0xff00 ||| value.toUInt16) :: m
  | _, m => m

/-- `new SQLWCHAR[length]`, then `memset` with the same number. -/
def Heap.filled (h : Heap) (value : UInt8) (i length : ℕ) : Buffer :=
  ⟨some (memset value length ((List.range length).map (h i))), false⟩

def Heap.cleared (h : Heap) (i length : ℕ) : Buffer := h.filled 0 i length

/-- A local array, cleared with its `sizeof`. -/
def zeroed (size : ℕ) : Buffer := ⟨some (ODBC.cleared size), false⟩

section Functions

variable (h : Heap)

structure IndexBuffers where
  indexName : Buffer
  schemaName : Option Buffer
  tableName : Buffer
  query : Option Buffer

def indexQuery (subtype : Text) : Text :=
  if subtype = "Microsoft SQL Server".toList then
    "SELECT 1 FROM sys.indexes WHERE name = ? AND object_id = OBJECT_ID( ? ) );".toList
  else if subtype = "MySQL".toList then
    "SELECT 1 FROM information_schema.statistics WHERE index_name = ? AND table_name = ? AND schema_name = ?;".toList
  else if subtype = "PostgreSQL".toList then
    "SELECT 1 FROM pg_indexes WHERE indexname = $1 AND tablename = $2 AND schemaname = $3;".toList
  else if subtype = "Sybase".toList ∨ subtype = "ASE".toList then
    "SELECT 1 FROM sysindexes ind, sysobjects obj WHERE obj.id = ind.id AND ind.name = ? AND obj.name = ?".toList
  else []

/-- `ret` is the answer of `SQLAllocHandle`. -/
def isIndexExists (subtype indexName schemaName tableName : Text) (ret : Ret) : IndexBuffers :=
  let index_name := (h.cleared 0 (indexName.length + 2)).ucToStrCpy indexName
  let query1 := indexQuery subtype
  let query := if ret.isOk then some ((h.cleared 3 (query1.length + 2)).ucToStrCpy query1) else none
  if subtype = "MySQL".toList ∨ subtype = "PostgreSQL".toList then
    let table_name := h.cleared 1 (tableName.length + 2)
    let schema_name := h.cleared 2 (schemaName.length + 2)
    ⟨index_name, some (schema_name.ucToStrCpy schemaName), table_name.ucToStrCpy tableName, query⟩
  else
    let table_name := h.cleared 1 (tableName.length + schemaName.length + 2)
    let table_name := table_name.ucToStrCpy schemaName
    let table_name := table_name.ucToStrCpy ".".toList
    ⟨index_name, none, table_name.ucToStrCpy tableName, query⟩

structure FieldBuffers where
  table : Buffer
  owner : Buffer
  fieldNameReq : Buffer
  qry : Buffer

def getFieldProperties (tableName schemaName ownerName fieldName : Text) : FieldBuffers :=
  let table := h.cleared 0 (schemaName.length + tableName.length + 3)
  -- '0' is not the terminator
  let owner := h.filled 0x30 1 (ownerName.length + 2)
  let fieldNameReq := h.cleared 2 (fieldName.length + 2)
  let table := table.ucToStrCpy schemaName
  let table := table.ucToStrCpy ".".toList
  let query := "SELECT * FROM \"abcatcol\" WHERE \"abc_tnam\" = ? AND \"abc_ownr\" = ? AND \"abc_cnam\" = ?;".toList
  ⟨table.ucToStrCpy tableName, owner.ucToStrCpy ownerName, fieldNameReq.ucToStrCpy fieldName,
    (h.cleared 3 (query.length + 2)).ucToStrCpy query⟩

structure ConnectBuffers where
  dsn : Buffer
  connectStrIn : Buffer

/-- `driver` is what `GetDriverForDSN` has found, or `none` where it failed. -/
def connect (selectedDSN : Text) (driver : Option (List UInt16)) : ConnectBuffers :=
  let (connectingDSN, credentials) := splitDsn selectedDSN
  let dsn := (zeroed 1024).ucToStrCpy connectingDSN
  let connectStrIn := zeroed (2 * 255)
  match driver with
  | none => ⟨dsn, connectStrIn⟩
  | some driver =>
    let connectStrIn := connectStrIn.ucToStrCpy "DSN=".toList
    let connectStrIn := connectStrIn.ucToStrCpy connectingDSN
    let connectStrIn := if isPostgres driver then connectStrIn.ucToStrCpy postgresOptions else connectStrIn
    match credentials with
    | none => ⟨dsn, connectStrIn⟩
    | some (connectingUser, connectingPassword) =>
      let user := (h.cleared 0 (connectingUser.length + 2)).ucToStrCpy connectingUser
      let password := (h.cleared 1 (connectingPassword.length + 2)).ucToStrCpy connectingPassword
      let connectStrIn := connectStrIn.ucToStrCpy ";UID=".toList
      let connectStrIn := connectStrIn.copyUcToUc user
      let connectStrIn := connectStrIn.ucToStrCpy ";PWD=".toList
      ⟨dsn, connectStrIn.copyUcToUc password⟩

end Functions

section Texts

variable {src : Text} {m : List UInt16}

def codes (src : Text) : List UInt16 := units (upToNul src)

/-- What is read of a text once it stands in a buffer. -/
def entered (src : Text) : List UInt16 := sqlString (codes src)

theorem entered_length_le (src : Text) : (entered src).length ≤ (codes src).length :=
  (List.takeWhile_sublist _).length_le

theorem codes_length_le (src : Text) : (codes src).length ≤ src.length := by
  rw [codes, units_length]
  exact (List.takeWhile_sublist _).length_le

theorem codes_of_storable (h : Storable src) : codes src = units src := by rw [codes, upToNul_of_storable h]

theorem codes_length_of_storable (h : Storable src) : (codes src).length = src.length := by
  rw [codes_of_storable h, units_length]

theorem entered_of_storable (h : Storable src) : entered src = units src := by
  rw [entered, codes_of_storable h]
  exact before_of_not_mem (zero_not_mem_units h)

/-- A unit before the terminator is not 0 and has 16 bits, and so is each character that it stands for. -/
theorem storable_of_map_toNat (hzero : 0 ∉ m) (h : m.map UInt16.toNat = src.map Char.toNat) : Storable src := by
  intro c hc
  have hmem : c.toNat ∈ m.map UInt16.toNat := by
    rw [h]
    exact List.mem_map_of_mem hc
  obtain ⟨u, hu, hnat⟩ := List.mem_map.mp hmem
  rw [← hnat]
  refine ⟨Nat.pos_of_ne_zero fun hnull => ?_, u.toNat_lt⟩
  have hsame : u = 0 := UInt16.toNat_inj.mp hnull
  exact hzero (hsame ▸ hu)

end Texts

section Writes

variable {b s : Buffer} {room n : ℕ} {text t : List UInt16}

structure Buffer.Stands (b : Buffer) (room : ℕ) (text : List UInt16) : Prop where
  memory : ∃ m, b.memory = some m ∧ m.length = room ∧ 0 ∈ m ∧ sqlString m = text
  strayed : b.strayed = false

theorem Buffer.Stands.zero_not_mem (hb : b.Stands room text) : 0 ∉ text := by
  obtain ⟨m, -, -, -, rfl⟩ := hb.memory
  exact not_mem_before 0 m

theorem Buffer.Stands.text_eq (hb : b.Stands room text) : b.text = some text := by
  obtain ⟨m, hmemory, -, hzero, rfl⟩ := hb.memory
  rw [Buffer.text, hmemory, Option.filter_some, if_pos (decide_eq_true hzero)]
  rfl

theorem writeAtEnd_isSome (m source ending : List UInt16) : (writeAtEnd m (source ++ ending)).isSome ↔
    (sqlString m).length + source.length + ending.length ≤ m.length := by
  unfold writeAtEnd
  dsimp only
  rw [List.length_append, ← Nat.add_assoc]
  split_ifs with h
  · exact iff_of_true rfl h
  · exact iff_of_false Bool.false_ne_true h

/-- The space stays the same, and the text ends within it. -/
theorem writeAtEnd_spec {m m' source rest : List UInt16} (h : writeAtEnd m (source ++ 0 :: rest) = some m') :
    m'.length = m.length ∧ 0 ∈ m' ∧ sqlString m' = sqlString m ++ sqlString source := by
  have hfit := (writeAtEnd_isSome m source (0 :: rest)).mp (Option.isSome_iff_exists.mpr ⟨m', h⟩)
  rw [Nat.add_assoc, ← List.length_append] at hfit
  have htake : m.take (sqlString m).length = sqlString m :=
    (List.prefix_iff_eq_take.mp (List.takeWhile_prefix _)).symm
  rw [writeAtEnd, if_pos hfit, Option.some_inj, htake] at h
  subst h
  refine ⟨?_, by simp, ?_⟩
  · simp only [List.length_append, List.length_drop, List.length_cons] at hfit ⊢
    omega
  · change before 0 (before 0 m ++ _) = before 0 m ++ before 0 source
    rw [before_append_before, List.append_assoc, List.cons_append, before_append_stop]

theorem exists_writeAtEnd {m : List UInt16} (source rest : List UInt16)
    (hroom : (sqlString m).length + source.length + (rest.length + 1) ≤ m.length) :
    ∃ m', writeAtEnd m (source ++ 0 :: rest) = some m' ∧ m'.length = m.length ∧ 0 ∈ m' ∧
      sqlString m' = sqlString m ++ sqlString source := by
  obtain ⟨m', hwrite⟩ := Option.isSome_iff_exists.mp ((writeAtEnd_isSome m source (0 :: rest)).mpr hroom)
  exact ⟨m', hwrite, writeAtEnd_spec hwrite⟩

theorem ucToStrCpy_memory (b : Buffer) (src : Text) :
    (b.ucToStrCpy src).memory = b.memory.bind fun m => ODBC.ucToStrCpy m src := by
  unfold Buffer.ucToStrCpy
  split
  · next m hwrite => exact hwrite.symm
  · next hwrite => exact hwrite.symm

theorem ucToStrCpy_stands (hb : b.Stands room text) (src : Text) (hfit : text.length + (codes src).length + 2 ≤ room) :
    (b.ucToStrCpy src).Stands room (text ++ entered src) := by
  obtain ⟨m, hmemory, rfl, -, rfl⟩ := hb.memory
  obtain ⟨m', hwrite, hlength, hzero, htext⟩ := exists_writeAtEnd (codes src) [0] hfit
  have hresult : b.ucToStrCpy src = { b with memory := some m' } := by
    rw [Buffer.ucToStrCpy, hmemory, Option.bind_some, show ODBC.ucToStrCpy m src = some m' from hwrite]
  rw [hresult]
  exact ⟨⟨m', rfl, hlength, hzero, htext⟩, hb.strayed⟩

theorem ucToStrCpy_strays (hb : b.Stands room text) (src : Text)
    (hfit : ¬text.length + (codes src).length + 2 ≤ room) : (b.ucToStrCpy src).strayed = true := by
  obtain ⟨m, hmemory, rfl, -, rfl⟩ := hb.memory
  have hnone : ODBC.ucToStrCpy m src = none :=
    Option.not_isSome_iff_eq_none.mp fun hsome => hfit ((writeAtEnd_isSome m (codes src) [0, 0]).mp hsome)
  rw [Buffer.ucToStrCpy, hmemory, Option.bind_some, hnone]

theorem strayed_ucToStrCpy (hb : b.strayed = true) (src : Text) : (b.ucToStrCpy src).strayed = true := by
  unfold Buffer.ucToStrCpy
  split
  · exact hb
  · rfl

theorem strays_of_lost (hb : b.memory = none) (src : Text) : (b.ucToStrCpy src).strayed = true := by
  rw [Buffer.ucToStrCpy, hb]
  rfl

theorem copyUcToUc_memory (b : Buffer) (hs : s.Stands n t) :
    (b.copyUcToUc s).memory = b.memory.bind fun m => writeAtEnd m (t ++ [0]) := by
  obtain ⟨m, hmemory, -, hzero, rfl⟩ := hs.memory
  rw [Buffer.copyUcToUc, hmemory, Option.filter_some, if_pos (decide_eq_true hzero)]
  rfl

theorem copyUcToUc_stands (hb : b.Stands room text) (hs : s.Stands n t) (hfit : text.length + t.length + 1 ≤ room) :
    (b.copyUcToUc s).Stands room (text ++ t) := by
  have hsrc : sqlString t = t := before_of_not_mem hs.zero_not_mem
  have hcopy := copyUcToUc_memory b hs
  obtain ⟨m, hmemory, rfl, -, rfl⟩ := hb.memory
  obtain ⟨m', hwrite, hlength, hzero, htext⟩ := exists_writeAtEnd t [] hfit
  rw [hmemory, Option.bind_some, hwrite] at hcopy
  rw [hsrc] at htext
  exact ⟨⟨m', hcopy, hlength, hzero, htext⟩, hb.strayed⟩

theorem copyUcToUc_lost (hb : b.Stands room text) (hs : s.Stands n t) (hfit : ¬text.length + t.length + 1 ≤ room) :
    (b.copyUcToUc s).memory = none := by
  have hcopy := copyUcToUc_memory b hs
  obtain ⟨m, hmemory, rfl, -, rfl⟩ := hb.memory
  rw [hcopy, hmemory, Option.bind_some]
  exact Option.not_isSome_iff_eq_none.mp fun hsome => hfit ((writeAtEnd_isSome m t [0]).mp hsome)

theorem memset_length (value : UInt8) (n : ℕ) (m : List UInt16) : (memset value n m).length = m.length := by
  fun_induction memset value n m with
  | case1 n u m ih => rw [List.length_cons, List.length_cons, ih]
  | case2 u m => rfl
  | case3 => rfl

theorem filled_memory (h : Heap) (value : UInt8) (i : ℕ) {n : ℕ} (hn : 2 ≤ n) :
    ∃ m, (h.filled value i n).memory = some ((value.toUInt16 ||| value.toUInt16 <<< 8) :: m) ∧ m.length + 1 = n := by
  obtain ⟨n, rfl⟩ := Nat.exists_eq_add_of_le' hn
  refine ⟨memset value n ((List.range (n + 1)).map fun j => h i (j + 1)), ?_, ?_⟩
  · rw [Heap.filled, List.range_succ_eq_map, List.map_cons, List.map_map]
    rfl
  · rw [memset_length, List.length_map, List.length_range]

theorem cleared_stands (h : Heap) (i : ℕ) {n : ℕ} (hn : 2 ≤ n) : (h.cleared i n).Stands n [] := by
  obtain ⟨m, hmemory, hlength⟩ := filled_memory h 0 i hn
  exact ⟨⟨_, hmemory, hlength, List.mem_cons_self, rfl⟩, rfl⟩

theorem zeroed_stands {n : ℕ} (hn : 0 < n) : (zeroed n).Stands n [] := by
  obtain ⟨n, rfl⟩ := Nat.exists_eq_add_one_of_ne_zero (Nat.ne_of_gt hn)
  exact ⟨⟨_, rfl, List.length_replicate, List.mem_cons_self, rfl⟩, rfl⟩

end Writes

section Answers

variable {b : Buffer} {room : ℕ} {text : List UInt16} {ts : List Text} (h : Heap)

structure Buffer.Holds (b : Buffer) (t : Text) : Prop where
  within : b.strayed = false
  text : b.text.map (List.map UInt16.toNat) = some (t.map Char.toNat)

theorem foldl_strayed (hb : b.strayed = true) (ts : List Text) : (ts.foldl Buffer.ucToStrCpy b).strayed = true := by
  induction ts generalizing b with
  | nil => exact hb
  | cons t ts ih => exact ih (strayed_ucToStrCpy hb t)

theorem foldl_stands (hb : b.Stands room text) (hwithin : (ts.foldl Buffer.ucToStrCpy b).strayed = false) :
    (ts.foldl Buffer.ucToStrCpy b).Stands room (text ++ ts.flatMap entered) := by
  induction ts generalizing b text with
  | nil => rwa [List.flatMap_nil, List.append_nil]
  | cons t ts ih =>
    rw [List.foldl_cons] at hwithin ⊢
    by_cases hfit : text.length + (codes t).length + 2 ≤ room
    · rw [List.flatMap_cons, ← List.append_assoc]
      exact ih (ucToStrCpy_stands hb t hfit) hwithin
    · rw [foldl_strayed (ucToStrCpy_strays hb t hfit) ts] at hwithin
      exact absurd hwithin Bool.noConfusion

theorem foldl_within_iff (hb : b.Stands room text) (hroom : text.length + 2 ≤ room) (hts : ∀ t ∈ ts, Storable t) :
    (ts.foldl Buffer.ucToStrCpy b).strayed = false ↔ text.length + ts.flatten.length + 2 ≤ room := by
  induction ts generalizing b text with
  | nil => exact iff_of_true hb.strayed hroom
  | cons t ts ih =>
    rw [List.forall_mem_cons] at hts
    have hlength := codes_length_of_storable hts.1
    rw [List.foldl_cons, List.flatten_cons, List.length_append]
    by_cases hfit : text.length + (codes t).length + 2 ≤ room
    · have hnext : (text ++ entered t).length = text.length + t.length := by
        rw [List.length_append, entered_of_storable hts.1, units_length]
      rw [ih (ucToStrCpy_stands hb t hfit) (by omega) hts.2, hnext, Nat.add_assoc text.length]
    · refine iff_of_false ?_ (by omega)
      rw [foldl_strayed (ucToStrCpy_strays hb t hfit) ts]
      exact Bool.noConfusion

/-- A buffer holds texts that were appended to it iff it has their total length and two units more. -/
theorem holds_foldl_iff (hb : b.Stands room []) (hroom : 2 ≤ room) (ts : List Text) :
    (ts.foldl Buffer.ucToStrCpy b).Holds ts.flatten ↔ (∀ t ∈ ts, Storable t) ∧ ts.flatten.length + 2 ≤ room := by
  have hwithin (hts : ∀ t ∈ ts, Storable t) := foldl_within_iff hb (by simpa using hroom) hts
  simp only [List.length_nil, Nat.zero_add] at hwithin
  constructor
  · intro hholds
    have hstands := foldl_stands hb hholds.within
    have htext := hholds.text
    rw [hstands.text_eq, Option.map_some, Option.some_inj] at htext
    have hstorable := storable_of_map_toNat hstands.zero_not_mem htext
    have hts : ∀ t ∈ ts, Storable t := fun t ht c hc => hstorable c (List.mem_flatten_of_mem ht hc)
    exact ⟨hts, (hwithin hts).mp hholds.within⟩
  · rintro ⟨hts, hlength⟩
    have hstays := (hwithin hts).mpr hlength
    refine ⟨hstays, ?_⟩
    rw [(foldl_stands hb hstays).text_eq, List.nil_append, Option.map_some, List.map_flatMap, List.map_flatten,
      ← List.flatMap_def]
    apply congrArg some
    refine List.flatMap_congr fun t ht => ?_
    rw [entered_of_storable (hts t ht), units_toNat (hts t ht)]

theorem holds_own_iff (i : ℕ) (t : Text) : ((h.cleared i (t.length + 2)).ucToStrCpy t).Holds t ↔ Storable t := by
  have hiff := holds_foldl_iff (cleared_stands h i (Nat.le_add_left 2 t.length)) (Nat.le_add_left 2 _) [t]
  rw [List.flatten_singleton] at hiff
  refine hiff.trans ?_
  rw [List.forall_mem_singleton]
  exact and_iff_left (Nat.le_refl _)

theorem own_stands (i : ℕ) (t : Text) :
    ((h.cleared i (t.length + 2)).ucToStrCpy t).Stands (t.length + 2) (entered t) := by
  apply ucToStrCpy_stands (cleared_stands h i (Nat.le_add_left 2 t.length)) t
  have hle := codes_length_le t
  rw [List.length_nil]
  omega

theorem storable_dot : Storable ".".toList := by
  decide

theorem holds_qualified_iff (hb : b.Stands room []) (hroom : 2 ≤ room) (schemaName tableName : Text) :
    (((b.ucToStrCpy schemaName).ucToStrCpy ".".toList).ucToStrCpy tableName).Holds
      (schemaName ++ '.' :: tableName) ↔
      Storable schemaName ∧ Storable tableName ∧ schemaName.length + tableName.length + 3 ≤ room := by
  have hiff := holds_foldl_iff hb hroom [schemaName, ".".toList, tableName]
  have hflat : [schemaName, ".".toList, tableName].flatten = schemaName ++ '.' :: tableName := by simp
  have hlength : (schemaName ++ '.' :: tableName).length + 2 = schemaName.length + tableName.length + 3 := by
    rw [List.length_append, List.length_cons]
    omega
  rw [hflat, hlength] at hiff
  refine hiff.trans ?_
  rw [List.forall_mem_cons, List.forall_mem_cons, List.forall_mem_singleton, and_assoc, and_assoc]
  exact and_congr_right fun _ => and_iff_right storable_dot

/-- Each buffer holds its name; where there is none for the schema, that of the table holds both. -/
structure IndexBuffers.Right (b : IndexBuffers) (index schema table : Text) : Prop where
  indexName : b.indexName.Holds index
  names : match b.schemaName with
    | some schemaName => schemaName.Holds schema ∧ b.tableName.Holds table
    | none => b.tableName.Holds (schema ++ '.' :: table)
  query : ∀ query ∈ b.query, query.strayed = false

theorem index_query_within (subtype index schema table : Text) (ret : Ret) :
    ∀ query ∈ (isIndexExists h subtype index schema table ret).query, query.strayed = false := by
  intro query hquery
  have hsame : (isIndexExists h subtype index schema table ret).query = if ret.isOk then
      some ((h.cleared 3 ((indexQuery subtype).length + 2)).ucToStrCpy (indexQuery subtype)) else none := by
    unfold isIndexExists
    dsimp only
    split_ifs <;> rfl
  rw [hsame] at hquery
  split_ifs at hquery with hret
  · obtain rfl := Option.some.inj hquery
    exact (own_stands h 3 (indexQuery subtype)).strayed
  · exact absurd hquery (Option.not_mem_none query)

theorem index_right_iff (subtype index schema table : Text) (ret : Ret) :
    (isIndexExists h subtype index schema table ret).Right index schema table ↔
      (subtype = "MySQL".toList ∨ subtype = "PostgreSQL".toList) ∧ Storable index ∧ Storable schema ∧ Storable table := by
  have hquery := index_query_within h subtype index schema table ret
  by_cases hsubtype : subtype = "MySQL".toList ∨ subtype = "PostgreSQL".toList
  · rw [isIndexExists, if_pos hsubtype] at hquery ⊢
    rw [and_iff_right hsubtype, ← holds_own_iff h 0 index, ← holds_own_iff h 2 schema, ← holds_own_iff h 1 table]
    exact ⟨fun hright => ⟨hright.indexName, hright.names⟩, fun ⟨hindex, hnames⟩ => ⟨hindex, hnames, hquery⟩⟩
  · refine iff_of_false (fun hright => ?_) fun hcond => hsubtype hcond.1
    rw [isIndexExists, if_neg hsubtype] at hright
    have hroom := (holds_qualified_iff (cleared_stands h 1 (Nat.le_add_left 2 _)) (Nat.le_add_left 2 _) schema
      table).mp hright.names
    omega

structure FieldBuffers.Right (b : FieldBuffers) (table schema owner field : Text) : Prop where
  table : b.table.Holds (schema ++ '.' :: table)
  owner : b.owner.Holds owner
  fieldNameReq : b.fieldNameReq.Holds field
  qry : b.qry.strayed = false

theorem field_table_iff (table schema owner field : Text) :
    (getFieldProperties h table schema owner field).table.Holds (schema ++ '.' :: table) ↔ Storable schema ∧ Storable table := by
  refine (holds_qualified_iff (cleared_stands h 0 (by omega)) (by omega) schema table).trans ?_
  rw [and_iff_left (Nat.le_refl _)]

/-- The first unit is not a terminator, so that nothing of the name has its place. -/
theorem field_owner (table schema owner field : Text) :
    ¬(getFieldProperties h table schema owner field).owner.Holds owner := by
  intro hholds
  obtain ⟨m, hmemory, hlength⟩ := filled_memory h 0x30 1 (Nat.le_add_left 2 owner.length)
  have hwrite := ucToStrCpy_memory (h.filled 0x30 1 (owner.length + 2)) owner
  rw [hmemory, Option.bind_some] at hwrite
  change _ = writeAtEnd (0x3030 :: m) (codes owner ++ [0, 0]) at hwrite
  change ((h.filled 0x30 1 (owner.length + 2)).ucToStrCpy owner).Holds owner at hholds
  have htext := hholds.text
  rw [Buffer.text, hwrite] at htext
  cases hresult : writeAtEnd (0x3030 :: m) (codes owner ++ [0, 0]) with
  | none =>
    rw [hresult] at htext
    exact absurd htext (by simp)
  | some m' =>
    have hroom := (writeAtEnd_isSome (0x3030 :: m) (codes owner) [0, 0]).mp (Option.isSome_iff_exists.mpr ⟨m', hresult⟩)
    have hzero := (writeAtEnd_spec hresult).2.1
    rw [hresult, Option.filter_some, if_pos (decide_eq_true hzero), Option.map_some, Option.map_some,
      Option.some_inj] at htext
    have hstorable := storable_of_map_toNat (not_mem_before 0 m') htext
    rw [show sqlString (0x3030 :: m) = 0x3030 :: sqlString m from rfl, codes_length_of_storable hstorable] at hroom
    simp only [List.length_cons] at hroom
    omega

theorem field_never_right (table schema owner field : Text) :
    ¬(getFieldProperties h table schema owner field).Right table schema owner field :=
  fun hright => field_owner h table schema owner field hright.owner

structure ConnectBuffers.Right (b : ConnectBuffers) : Prop where
  dsn : b.dsn.strayed = false
  connectStrIn : b.connectStrIn.strayed = false

/-- The units of the data source and of the user, up to where each ends, and the words of the connection string before
the password. -/
def UserFits (driver : List UInt16) (dsn user : Text) : Prop :=
  (entered dsn).length + optionsLength driver + (entered user).length + 16 ≤ 510

def DsnShort (selectedDSN : Text) : Prop := (splitDsn selectedDSN).1.length ≤ maxDsnLength

theorem dsn_stands {dsn : Text} (hdsn : dsn.length ≤ maxDsnLength) :
    ((zeroed 1024).ucToStrCpy dsn).Stands 1024 (entered dsn) := by
  have hle := codes_length_le dsn
  unfold maxDsnLength at hdsn
  exact ucToStrCpy_stands (zeroed_stands (by omega)) dsn (by rw [List.length_nil]; omega)

/-- What stands before the credentials always has its place. -/
theorem connect_begins {dsn : Text} (hdsn : dsn.length ≤ maxDsnLength) (driver : List UInt16) :
    ∃ text, text.length = 4 + (entered dsn).length + optionsLength driver ∧
      (if isPostgres driver then
        (((zeroed (2 * 255)).ucToStrCpy "DSN=".toList).ucToStrCpy dsn).ucToStrCpy postgresOptions
      else ((zeroed (2 * 255)).ucToStrCpy "DSN=".toList).ucToStrCpy dsn).Stands (2 * 255) text := by
  have hle := codes_length_le dsn
  have hshort := entered_length_le dsn
  have hword : (codes "DSN=".toList).length = 4 := by decide +kernel
  have hwordText : (entered "DSN=".toList).length = 4 := by decide +kernel
  have hside : (codes postgresOptions).length = 43 := by decide +kernel
  have hsideText : (entered postgresOptions).length = 43 := by decide +kernel
  unfold maxDsnLength at hdsn
  have hfirst := ucToStrCpy_stands (zeroed_stands (n := 2 * 255) (by omega)) "DSN=".toList
    (by rw [List.length_nil]; omega)
  have hsecond := ucToStrCpy_stands hfirst dsn (by rw [List.length_append, List.length_nil]; omega)
  unfold optionsLength
  split_ifs with hdriver
  · refine ⟨_, ?_, ucToStrCpy_stands hsecond _ ?_⟩
    · simp only [List.length_append, List.length_nil]
      omega
    · simp only [List.length_append, List.length_nil]
      omega
  · refine ⟨_, ?_, hsecond⟩
    simp only [List.length_append, List.length_nil]
    omega

/-- The password stands last and is not written by `uc_to_str_cpy`, so that its length does not count. -/
theorem credentials_within_iff {user : Buffer} {n : ℕ} {t : List UInt16} (hb : b.Stands room text)
    (hroom : text.length + 7 ≤ room) (huser : user.Stands n t) (password : Buffer) :
    ((((b.ucToStrCpy ";UID=".toList).copyUcToUc user).ucToStrCpy ";PWD=".toList).copyUcToUc password).strayed = false ↔
      text.length + t.length + 12 ≤ room := by
  have hword : (codes ";UID=".toList).length = 5 := by decide +kernel
  have hwordText : (entered ";UID=".toList).length = 5 := by decide +kernel
  have hpwd : (codes ";PWD=".toList).length = 5 := by decide +kernel
  have huid := ucToStrCpy_stands hb ";UID=".toList (by omega)
  have hlength : (text ++ entered ";UID=".toList).length = text.length + 5 := by rw [List.length_append, hwordText]
  change (((b.ucToStrCpy ";UID=".toList).copyUcToUc user).ucToStrCpy ";PWD=".toList).strayed = false ↔ _
  by_cases hcopy : (text ++ entered ";UID=".toList).length + t.length + 1 ≤ room
  · have hcopied := copyUcToUc_stands huid huser hcopy
    have hafter : (text ++ entered ";UID=".toList ++ t).length = text.length + 5 + t.length := by
      rw [List.length_append, hlength]
    by_cases hfit : (text ++ entered ";UID=".toList ++ t).length + (codes ";PWD=".toList).length + 2 ≤ room
    · exact iff_of_true (ucToStrCpy_stands hcopied _ hfit).strayed (by omega)
    · refine iff_of_false ?_ (by omega)
      rw [ucToStrCpy_strays hcopied _ hfit]
      exact Bool.noConfusion
  · refine iff_of_false ?_ (by omega)
    rw [strays_of_lost (copyUcToUc_lost huid huser hcopy)]
    exact Bool.noConfusion

theorem connect_right_iff {selectedDSN : Text} (hdsn : DsnShort selectedDSN) (driver : Option (List UInt16)) :
    (connect h selectedDSN driver).Right ↔ ∀ found user password, driver = some found →
      (splitDsn selectedDSN).2 = some (user, password) → UserFits found (splitDsn selectedDSN).1 user := by
  unfold DsnShort at hdsn
  unfold connect
  generalize splitDsn selectedDSN = parts at hdsn ⊢
  obtain ⟨dsn, credentials⟩ := parts
  change dsn.length ≤ maxDsnLength at hdsn
  have hfirst := (dsn_stands hdsn).strayed
  cases driver with
  | none => exact iff_of_true ⟨hfirst, (zeroed_stands (by omega)).strayed⟩ fun _ _ _ hfound => nomatch hfound
  | some driver =>
    obtain ⟨text, hlength, hstands⟩ := connect_begins hdsn driver
    have hshort : (entered dsn).length ≤ dsn.length := (entered_length_le dsn).trans (codes_length_le dsn)
    have hoptions : optionsLength driver ≤ 43 := by
      unfold optionsLength
      split_ifs <;> omega
    cases credentials with
    | none => exact iff_of_true ⟨hfirst, hstands.strayed⟩ fun _ _ _ _ hcred => nomatch hcred
    | some credentials =>
      obtain ⟨user, password⟩ := credentials
      have hwithin := credentials_within_iff hstands (by unfold maxDsnLength at hdsn; omega)
        (own_stands h 0 user) ((h.cleared 1 (password.length + 2)).ucToStrCpy password)
      have hcond : text.length + (entered user).length + 12 ≤ 2 * 255 ↔ UserFits driver dsn user := by
        unfold UserFits
        omega
      constructor
      · rintro hright found user' password' hfound hcred
        obtain rfl := Option.some.inj hfound
        obtain ⟨rfl, rfl⟩ := Prod.mk.inj (Option.some.inj hcred)
        exact hcond.mp (hwithin.mp hright.connectStrIn)
      · intro hfits
        exact ⟨hfirst, hwithin.mpr (hcond.mpr (hfits driver user password rfl rfl))⟩

theorem copyUcToUc_own (i : ℕ) (src : Text) :
    (b.copyUcToUc ((h.cleared i (src.length + 2)).ucToStrCpy src)).memory =
      b.memory.bind fun m => ODBC.copyUcToUc m (credential src) := by
  have hsource : sqlString (credential src) = entered src := before_append_stop 0 (codes src) [0]
  rw [copyUcToUc_memory b (own_stands h i src)]
  unfold ODBC.copyUcToUc
  rw [hsource]

/-- The connection string is that of the model without the heap. -/
theorem connect_connectStrIn {selectedDSN : Text} (hdsn : DsnShort selectedDSN) (driver : List UInt16) :
    (connect h selectedDSN (some driver)).connectStrIn.memory = ODBC.connectStrIn driver selectedDSN := by
  unfold DsnShort at hdsn
  unfold connect ODBC.connectStrIn
  generalize splitDsn selectedDSN = parts at hdsn ⊢
  obtain ⟨dsn, credentials⟩ := parts
  change dsn.length ≤ maxDsnLength at hdsn
  obtain ⟨m, hdsnMemory, -⟩ := (dsn_stands hdsn).memory
  rw [ucToStrCpy_memory] at hdsnMemory
  change ODBC.ucToStrCpy (ODBC.cleared 1024) dsn = some m at hdsnMemory
  have hstart : (zeroed (2 * 255)).memory = some (ODBC.cleared (2 * 255)) := rfl
  cases credentials with
  | none =>
    by_cases hpostgres : isPostgres driver = true
    · simp [ucToStrCpy_memory, hstart, hdsnMemory, hpostgres, Option.bind_assoc]
    · simp [ucToStrCpy_memory, hstart, hdsnMemory, hpostgres]
  | some credentials =>
    obtain ⟨user, password⟩ := credentials
    by_cases hpostgres : isPostgres driver = true
    · simp [ucToStrCpy_memory, copyUcToUc_own, hstart, hdsnMemory, hpostgres, Option.bind_assoc]
    · simp [ucToStrCpy_memory, copyUcToUc_own, hstart, hdsnMemory, hpostgres, Option.bind_assoc]

end Answers

section Calls

inductive Call
  | isIndexExists (subtype indexName schemaName tableName : Text) (ret : Ret)
  | getFieldProperties (tableName schemaName ownerName fieldName : Text)
  | connect (selectedDSN : Text) (driver : Option (List UInt16))

def Call.Right (h : Heap) : Call → Prop
  | .isIndexExists subtype indexName schemaName tableName ret =>
    (NameBuffers.isIndexExists h subtype indexName schemaName tableName ret).Right indexName schemaName tableName
  | .getFieldProperties tableName schemaName ownerName fieldName =>
    (NameBuffers.getFieldProperties h tableName schemaName ownerName fieldName).Right tableName schemaName ownerName
      fieldName
  | .connect selectedDSN driver => DsnShort selectedDSN → (NameBuffers.connect h selectedDSN driver).Right

def Call.LargeEnough : Call → Prop
  | .isIndexExists subtype indexName schemaName tableName _ =>
    (subtype = "MySQL".toList ∨ subtype = "PostgreSQL".toList) ∧
      Storable indexName ∧ Storable schemaName ∧ Storable tableName
  | .getFieldProperties .. => False
  | .connect selectedDSN driver => DsnShort selectedDSN → ∀ found user password, driver = some found →
    (splitDsn selectedDSN).2 = some (user, password) → UserFits found (splitDsn selectedDSN).1 user

theorem name_buffers_iff (h : Heap) (call : Call) : call.Right h ↔ call.LargeEnough := by
  cases call with
  | isIndexExists subtype indexName schemaName tableName ret =>
    exact index_right_iff h subtype indexName schemaName tableName ret
  | getFieldProperties tableName schemaName ownerName fieldName =>
    exact iff_false_intro (field_never_right h tableName schemaName ownerName fieldName)
  | connect selectedDSN driver => exact forall_congr' fun hdsn => connect_right_iff h hdsn driver

def findPerson : Call := .isIndexExists "Microsoft SQL Server".toList "ix".toList "dbo".toList "person".toList .success

theorem dbo_person_strays : ¬findPerson.Right fun _ _ => 0 := by
  intro hright
  have hnames := hright.names
  change ((((Heap.cleared (fun _ _ => 0) 1 11).ucToStrCpy "dbo".toList).ucToStrCpy ".".toList).ucToStrCpy
    "person".toList).Holds _ at hnames
  exact absurd hnames.within (by decide +kernel)

end Calls

end DbHandler.Odbc.NameBuffers
