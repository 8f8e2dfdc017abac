import DbHandler.Connections.Postgres

namespace DbHandler.Connections.Postgres

open Foundation.Search Foundation.Separators

section Parsing

variable {p pre rest key value a b : Text}

theorem substr_find (h : Avoids p pre rest) (hp : p <+: rest) :
    substr (find p (pre ++ rest)) (pre ++ rest) = some rest := by
  rw [find_at h hp]
  simp [substr]

theorem readBehind (ha : '=' ∉ a) (c : Char) :
    ((substr (find ['='] (a ++ '=' :: c :: b)) (a ++ '=' :: c :: b)).bind fun temp =>
      (substr (behindEquals temp) temp).map (before ' ')) = some (before ' ' b) := by
  have hfind : substr (find ['='] (a ++ '=' :: c :: b)) (a ++ '=' :: c :: b) = some ('=' :: c :: b) :=
    substr_find (avoids_of_head ha) ⟨c :: b, rfl⟩
  have hplace : behindEquals ('=' :: c :: b) = some 2 := by
    have hhead : find ['='] ('=' :: c :: b) = some 0 := find_at_start ⟨c :: b, rfl⟩
    rw [behindEquals, hhead]
    rfl
  rw [hfind, Option.bind_some, hplace]
  simp [substr]

theorem parseUser_eq (h : substr (find "user".toList value) value = some (a ++ '=' :: b)) :
    parseUser value = ((substr (find ['='] (a ++ '=' :: b)) (a ++ '=' :: b)).bind fun temp =>
      (substr (behindEquals temp) temp).map (before ' ')) := by
  rw [parseUser, h]
  cases hsecond : substr (find ['='] (a ++ '=' :: b)) (a ++ '=' :: b) with
  | none => simp [hsecond]
  | some temp =>
    cases hthird : substr (behindEquals temp) temp <;> simp [hsecond, hthird]

/-- The text that is taken for the user where a value has the word `user` in it and goes on as `found` from there. -/
def readInstead (found nextKey nextValue : Text) : Text :=
  if '=' ∈ found then
    match after '=' found with
    | [] => nextKey
    | _ :: t => t
  else nextValue

def misread (value nextKey nextValue : Text) : Option Text :=
  (find "user".toList value).map fun n => readInstead (value.drop n) nextKey nextValue

theorem spacedEntry_append (key value rest : Text) :
    spacedEntry key value ++ rest = key ++ (" = ".toList ++ (value ++ ' ' :: rest)) := by simp [spacedEntry]

theorem parseUser_misread {n : ℕ} {nextKey nextValue tail : Text} (hfind : find "user".toList value = some n)
    (hvalue : ' ' ∉ value) (hkey : ' ' ∉ nextKey) (hequals : '=' ∉ nextKey) (hnext : ' ' ∉ nextValue)
    (hpre : Avoids "user".toList pre (value ++ ' ' :: (spacedEntry nextKey nextValue ++ tail))) :
    parseUser (pre ++ (value ++ ' ' :: (spacedEntry nextKey nextValue ++ tail))) =
      some (readInstead (value.drop n) nextKey nextValue) := by
  obtain ⟨havoids, hlead⟩ := find_split hfind
  have hblank : ' ' ∉ value.drop n := fun h => hvalue (List.mem_of_mem_drop h)
  have hsplit : value ++ ' ' :: (spacedEntry nextKey nextValue ++ tail) =
      value.take n ++ (value.drop n ++ ' ' :: (spacedEntry nextKey nextValue ++ tail)) := by
    rw [← List.append_assoc, List.take_append_drop]
  have hfound : substr (find "user".toList (pre ++ (value ++ ' ' :: (spacedEntry nextKey nextValue ++ tail))))
      (pre ++ (value ++ ' ' :: (spacedEntry nextKey nextValue ++ tail))) =
        some (value.drop n ++ ' ' :: (spacedEntry nextKey nextValue ++ tail)) := by
    rw [hsplit] at hpre ⊢
    rw [← List.append_assoc]
    apply substr_find
    · apply avoids_append.mpr
      exact ⟨hpre, havoids.extend hlead.length_le _⟩
    · exact hlead.trans (List.prefix_append _ _)
  by_cases hmem : '=' ∈ value.drop n
  · have hdrop := before_append_after hmem
    have hread : readInstead (value.drop n) nextKey nextValue =
        match after '=' (value.drop n) with
        | [] => nextKey
        | _ :: t => t := if_pos hmem
    rw [hread]
    cases hafter : after '=' (value.drop n) with
    | nil =>
      rw [hafter] at hdrop
      rw [← hdrop, List.append_assoc, List.cons_append, List.nil_append] at hfound
      rw [parseUser_eq hfound, readBehind (not_mem_before '=' _), spacedEntry_append]
      exact congrArg some (before_append hkey)
    | cons c t =>
      rw [hafter] at hdrop
      have ht : ' ' ∉ t := by
        intro h
        apply hblank
        rw [← hdrop]
        simp [h]
      rw [← hdrop, List.append_assoc, List.cons_append, List.cons_append] at hfound
      rw [parseUser_eq hfound, readBehind (not_mem_before '=' _), before_append ht]
  · have hfound' : value.drop n ++ ' ' :: (spacedEntry nextKey nextValue ++ tail) =
        (value.drop n ++ ' ' :: (nextKey ++ [' '])) ++ '=' :: ' ' :: (nextValue ++ ' ' :: tail) := by
      rw [spacedEntry_append]
      simp
    have hnone : '=' ∉ value.drop n ++ ' ' :: (nextKey ++ [' ']) := by simp [hmem, hequals]
    rw [hfound'] at hfound
    rw [parseUser_eq hfound, readBehind hnone, before_append hnext, readInstead, if_neg hmem]

theorem parseUser_key {user tail : Text} (huser : ' ' ∉ user)
    (hpre : Avoids "user".toList pre (spacedEntry "user".toList user ++ tail)) :
    parseUser (pre ++ (spacedEntry "user".toList user ++ tail)) = some user := by
  have hlead : "user".toList <+: spacedEntry "user".toList user ++ tail := by
    rw [spacedEntry_append]
    exact List.prefix_append _ _
  have hfound := substr_find hpre hlead
  have hsplit : spacedEntry "user".toList user ++ tail =
      "user ".toList ++ '=' :: ' ' :: (user ++ ' ' :: tail) := by
    rw [spacedEntry_append]
    rfl
  rw [hsplit] at hfound ⊢
  rw [parseUser_eq hfound, readBehind (by decide), before_append huser]

theorem parseDbName_eq {dbname tail : Text} (hdbname : ' ' ∉ dbname)
    (hpre : Avoids "dbname = ".toList pre (spacedEntry "dbname".toList dbname ++ tail)) :
    parseDbName (pre ++ (spacedEntry "dbname".toList dbname ++ tail)) = some dbname := by
  have hsplit : spacedEntry "dbname".toList dbname ++ tail = "dbname = ".toList ++ (dbname ++ ' ' :: tail) := by
    rw [spacedEntry_append]
    rfl
  have hfound := substr_find hpre (by rw [hsplit]; exact List.prefix_append _ _)
  have hplace : behindEquals ("dbname = ".toList ++ (dbname ++ ' ' :: tail)) = some 9 := by
    have hfind : find ['='] ("dbname ".toList ++ '=' :: ' ' :: (dbname ++ ' ' :: tail)) =
        some "dbname ".toList.length :=
      find_at (avoids_of_head (by decide)) ⟨_, rfl⟩
    rw [behindEquals]
    exact congrArg (fun n : Option ℕ => some (n.elim 1 (· + 2))) hfind
  have hrest : substr (some 9) ("dbname = ".toList ++ (dbname ++ ' ' :: tail)) = some (dbname ++ ' ' :: tail) := by
    change (if 9 ≤ ("dbname = ".toList ++ (dbname ++ ' ' :: tail)).length then some (dbname ++ ' ' :: tail) else none) = _
    rw [if_pos]
    rw [List.length_append]
    change 9 ≤ 9 + _
    omega
  rw [hsplit] at hfound ⊢
  simp only [parseDbName, hfound, Option.bind_eq_bind, Option.bind_some, hplace, hrest]
  exact congrArg some (before_append hdbname)

end Parsing

section Entries

variable {p rest key value : Text}

def spacedEntryIf (key value : Text) : Text := if value = [] then [] else spacedEntry key value

theorem avoids_spacedEntry_iff (hp : p ≠ []) (hblank : ' ' ∉ p) (hequals : '=' ∉ p) (hkey : ¬ p <:+: key) :
    Avoids p (spacedEntry key value) rest ↔ ¬ p <:+: value := by
  obtain ⟨h, t, rfl⟩ := List.exists_cons_of_ne_nil hp
  have hhead : h ∉ " = ".toList := by
    intro hmem
    have hcase : h = ' ' ∨ h = '=' ∨ h = ' ' := by simpa using hmem
    rcases hcase with rfl | rfl | rfl
    · exact hblank List.mem_cons_self
    · exact hequals List.mem_cons_self
    · exact hblank List.mem_cons_self
  have hlast : h ∉ [' '] := by
    intro hmem
    obtain rfl := List.mem_singleton.mp hmem
    exact hblank List.mem_cons_self
  unfold spacedEntry
  rw [avoids_append, avoids_append, List.append_assoc, avoids_append]
  have hstop : Avoids (h :: t) key (" = ".toList ++ (value ++ ([' '] ++ rest))) := avoids_of_stop (x := ' ') hblank hkey
  have hsign : Avoids (h :: t) " = ".toList (value ++ ([' '] ++ rest)) := avoids_of_head hhead
  have hend : Avoids (h :: t) [' '] rest := avoids_of_head hlast
  simp only [hstop, hsign, hend, true_and, and_true]
  exact avoids_stop_iff hp hblank

theorem avoids_spacedEntryIf_iff (hp : p ≠ []) (hblank : ' ' ∉ p) (hequals : '=' ∉ p) (hkey : ¬ p <:+: key) :
    Avoids p (spacedEntryIf key value) rest ↔ ¬ p <:+: value := by
  unfold spacedEntryIf
  split_ifs with hempty
  · simp [hempty, hp]
  · exact avoids_spacedEntry_iff hp hblank hequals hkey

theorem avoids_dbname (hkey : ¬ "dbname".toList <:+: key) (hvalue : ' ' ∉ value) (hrest : ¬ "= ".toList <+: rest) :
    Avoids "dbname = ".toList (spacedEntry key value) rest := by
  unfold spacedEntry
  rw [avoids_append, avoids_append, List.append_assoc, avoids_append]
  refine ⟨⟨?_, ?_⟩, ?_, ?_⟩
  · have hword : Avoids "dbname".toList key (" = ".toList ++ (value ++ ([' '] ++ rest))) :=
      avoids_of_stop (x := ' ') (by decide) hkey
    exact hword.of_prefix ⟨" = ".toList, rfl⟩
  · exact avoids_of_head (by decide)
  · exact avoids_of_word (w := "dbname".toList) (q := "= ".toList) (by decide) hvalue hrest
  · exact avoids_of_head (by decide)

theorem avoids_dbnameIf (hkey : ¬ "dbname".toList <:+: key) (hvalue : ' ' ∉ value) (hrest : ¬ "= ".toList <+: rest) :
    Avoids "dbname = ".toList (spacedEntryIf key value) rest := by
  unfold spacedEntryIf
  split_ifs
  · exact avoids_nil _ _
  · exact avoids_dbname hkey hvalue hrest

theorem not_prefix_spacedEntry (hkey : key ≠ []) (hequals : '=' ∉ key) :
    ¬ "= ".toList <+: spacedEntry key value ++ rest := by
  obtain ⟨c, t, rfl⟩ := List.exists_cons_of_ne_nil hkey
  rintro ⟨more, hmore⟩
  apply hequals
  have hhead : '=' = c := by
    rw [spacedEntry_append] at hmore
    exact (List.cons.inj hmore).1
  rw [hhead]
  exact List.mem_cons_self

theorem not_prefix_spacedEntryIf (hkey : key ≠ []) (hequals : '=' ∉ key) (hrest : ¬ "= ".toList <+: rest) :
    ¬ "= ".toList <+: spacedEntryIf key value ++ rest := by
  unfold spacedEntryIf
  split_ifs
  · exact hrest
  · exact not_prefix_spacedEntry hkey hequals

end Entries

section Page

variable {page : PostgresConnect}

def portText (page : PostgresConnect) : Text := if page.port = [] then digits 5432 else page.port

structure Plain (page : PostgresConnect) : Prop where
  host : ' ' ∉ page.host
  hostAddr : ' ' ∉ page.hostAddr
  port : ' ' ∉ page.port
  userID : ' ' ∉ page.userID
  password : ' ' ∉ page.password
  dbName : ' ' ∉ page.dbName
  connStr : page.connStr = []

theorem onConnect_eq (h : Plain page) : page.onConnect =
    spacedEntryIf "host".toList page.host ++
    (spacedEntryIf "hostaddr".toList page.hostAddr ++
    (spacedEntry "port".toList (portText page) ++
    (spacedEntry "user".toList page.userID ++
    (spacedEntry "password".toList page.password ++
    (spacedEntryIf "dbname".toList page.dbName ++
    spacedEntry "connect_timeout".toList (digits page.timeout)))))) := by
  unfold PostgresConnect.onConnect
  rw [h.connStr]
  rfl

theorem portText_blank (h : Plain page) : ' ' ∉ portText page := by
  unfold portText
  split_ifs
  · decide
  · exact h.port

def firstMisread (page : PostgresConnect) : Option Text :=
  ((misread page.host
      (if page.hostAddr = [] then "port".toList else "hostaddr".toList)
      (if page.hostAddr = [] then portText page else page.hostAddr)).or
    (misread page.hostAddr "port".toList (portText page))).or
    (misread (portText page) "user".toList page.userID)

theorem ne_nil_of_find {value : Text} {n : ℕ} (h : find "user".toList value = some n) : value ≠ [] := by
  rintro rfl
  have hnone : find "user".toList [] = none := rfl
  rw [hnone] at h
  exact absurd h (by simp)

theorem avoids_user_iff {key value rest : Text} (hkey : ¬ "user".toList <:+: key) :
    Avoids "user".toList (spacedEntry key value) rest ↔ find "user".toList value = none := by
  rw [avoids_spacedEntry_iff (by decide) (by decide) (by decide) hkey, find_eq_none_iff (by decide)]

theorem avoids_userIf_iff {key value rest : Text} (hkey : ¬ "user".toList <:+: key) :
    Avoids "user".toList (spacedEntryIf key value) rest ↔ find "user".toList value = none := by
  rw [avoids_spacedEntryIf_iff (by decide) (by decide) (by decide) hkey, find_eq_none_iff (by decide)]

theorem avoids_user_key {key rest : Text} (hkey : 'u' ∉ key) : Avoids "user".toList (key ++ " = ".toList) rest := by
  apply avoids_of_head (h := 'u') (t := "ser".toList)
  rw [List.mem_append]
  rintro (h | h)
  · exact hkey h
  · exact absurd h (by decide)

theorem parseUser_onConnect (h : Plain page) :
    parseUser page.onConnect = some ((firstMisread page).getD page.userID) := by
  rw [onConnect_eq h, firstMisread]
  cases hhost : find "user".toList page.host with
  | some n =>
    have hne := ne_nil_of_find hhost
    rw [misread, hhost, spacedEntryIf, if_neg hne, spacedEntry_append, ← List.append_assoc]
    by_cases haddr : page.hostAddr = []
    · rw [haddr, spacedEntryIf, if_pos rfl, List.nil_append]
      exact parseUser_misread hhost h.host (by decide) (by decide) (portText_blank h) (avoids_user_key (by decide))
    · rw [spacedEntryIf, if_neg haddr, if_neg haddr, if_neg haddr]
      exact parseUser_misread hhost h.host (by decide) (by decide) h.hostAddr (avoids_user_key (by decide))
  | none =>
    rw [misread, hhost, Option.map_none, Option.none_or]
    cases haddr : find "user".toList page.hostAddr with
    | some n =>
      have hne := ne_nil_of_find haddr
      rw [misread, haddr, spacedEntryIf.eq_1 "hostaddr".toList, if_neg hne, spacedEntry_append, ← List.append_assoc,
        ← List.append_assoc]
      apply parseUser_misread haddr h.hostAddr (by decide) (by decide) (portText_blank h)
      rw [List.append_assoc]
      apply avoids_append.mpr
      exact ⟨(avoids_userIf_iff (by decide)).mpr hhost, avoids_user_key (by decide)⟩
    | none =>
      rw [misread, haddr, Option.map_none, Option.none_or]
      cases hport : find "user".toList (portText page) with
      | some n =>
        rw [misread, hport, spacedEntry_append "port".toList, ← List.append_assoc, ← List.append_assoc,
          ← List.append_assoc]
        apply parseUser_misread hport (portText_blank h) (by decide) (by decide) h.userID
        rw [List.append_assoc, List.append_assoc]
        apply avoids_append.mpr
        refine ⟨(avoids_userIf_iff (by decide)).mpr hhost, avoids_append.mpr ⟨?_, avoids_user_key (by decide)⟩⟩
        exact (avoids_userIf_iff (by decide)).mpr haddr
      | none =>
        rw [misread, hport, ← List.append_assoc, ← List.append_assoc]
        apply parseUser_key h.userID
        rw [List.append_assoc]
        apply avoids_append.mpr
        refine ⟨(avoids_userIf_iff (by decide)).mpr hhost, avoids_append.mpr ⟨?_, ?_⟩⟩
        · exact (avoids_userIf_iff (by decide)).mpr haddr
        · exact (avoids_user_iff (by decide)).mpr hport

def values (page : PostgresConnect) : List Text :=
  [page.host, page.hostAddr, portText page, page.userID, page.password]

theorem digits_no_dbname (n : ℤ) : ¬ "dbname".toList <:+: digits n := by
  intro h
  have hmem : 'd' ∈ digits n := h.subset (by decide)
  exact not_mem_digits (by decide) (by decide) n hmem

theorem names_none_iff (h : Plain page) : find "dbname".toList page.onConnect = none ↔
    page.dbName = [] ∧ ∀ value ∈ values page, ¬ "dbname".toList <:+: value := by
  have hlast : Avoids "dbname".toList (spacedEntry "connect_timeout".toList (digits page.timeout)) [] :=
    (avoids_spacedEntry_iff (by decide) (by decide) (by decide) (by decide)).mpr (digits_no_dbname _)
  have hdbname (rest : Text) : Avoids "dbname".toList (spacedEntryIf "dbname".toList page.dbName) rest ↔ page.dbName = [] := by
    unfold spacedEntryIf
    split_ifs with hempty
    · simp [hempty]
    · apply iff_of_false _ hempty
      intro havoids
      apply havoids.not_infix (by decide)
      exact (List.prefix_append _ _).isInfix
  rw [find_eq_none_iff (by decide), ← avoids_all (by decide), onConnect_eq h]
  simp only [avoids_append]
  rw [avoids_spacedEntryIf_iff (by decide) (by decide) (by decide) (by decide),
    avoids_spacedEntryIf_iff (by decide) (by decide) (by decide) (by decide),
    avoids_spacedEntry_iff (by decide) (by decide) (by decide) (by decide),
    avoids_spacedEntry_iff (by decide) (by decide) (by decide) (by decide),
    avoids_spacedEntry_iff (by decide) (by decide) (by decide) (by decide), hdbname]
  simp only [values, List.forall_mem_cons, List.not_mem_nil, false_imp_iff, implies_true, and_true, hlast]
  tauto

theorem parseDbName_onConnect (h : Plain page) (hname : page.dbName ≠ []) :
    parseDbName page.onConnect = some page.dbName := by
  have hsplit : page.onConnect =
      (spacedEntryIf "host".toList page.host ++
      (spacedEntryIf "hostaddr".toList page.hostAddr ++
      (spacedEntry "port".toList (portText page) ++
      (spacedEntry "user".toList page.userID ++
      spacedEntry "password".toList page.password)))) ++
      (spacedEntry "dbname".toList page.dbName ++ spacedEntry "connect_timeout".toList (digits page.timeout)) := by
    rw [onConnect_eq h, spacedEntryIf.eq_1 "dbname".toList, if_neg hname]
    simp only [List.append_assoc]
  rw [hsplit]
  apply parseDbName_eq h.dbName
  have hkeyword (key value rest : Text) (hkey : key ≠ []) (hequals : '=' ∉ key) :
      ¬ "= ".toList <+: spacedEntry key value ++ rest := not_prefix_spacedEntry hkey hequals
  apply avoids_append.mpr
  refine ⟨avoids_dbnameIf (by decide) h.host ?_, avoids_append.mpr ⟨avoids_dbnameIf (by decide) h.hostAddr ?_,
    avoids_append.mpr ⟨avoids_dbname (by decide) (portText_blank h) ?_,
      avoids_append.mpr ⟨avoids_dbname (by decide) h.userID ?_, avoids_dbname (by decide) h.password ?_⟩⟩⟩⟩
  · rw [List.append_assoc]
    apply not_prefix_spacedEntryIf (by decide) (by decide)
    rw [List.append_assoc]
    exact hkeyword _ _ _ (by decide) (by decide)
  · rw [List.append_assoc]
    exact hkeyword _ _ _ (by decide) (by decide)
  · rw [List.append_assoc]
    exact hkeyword _ _ _ (by decide) (by decide)
  · exact hkeyword _ _ _ (by decide) (by decide)
  · exact hkeyword _ _ _ (by decide) (by decide)

def ReadsBack (page : PostgresConnect) (outcome : Outcome) : Prop :=
  ∃ result path db, outcome = .returns result (some path) db ∧ db.connectedUser = page.userID ∧
    (path = .createSystemObjectsAndGetDatabaseInfo ↔ page.dbName ≠ []) ∧
    (page.dbName ≠ [] → db.dbName = page.dbName)

theorem getServerVersion_code {library : ServerVersion.Postgres.Library} (f : ServerVersion.Fields)
    (errorMsg : List Text) (h : 0 < library.serverVersion) :
    (ServerVersion.Postgres.getServerVersion library f errorMsg).1 = 0 := by
  unfold ServerVersion.Postgres.getServerVersion
  rw [if_neg (by omega)]

theorem connectedUser_of_connect {library : Library} {db db' : Database} {result : ℕ} {path : Path} (hpage : Plain page)
    (hconnect : library.connectdb page.onConnect = none) (hversion : 0 < library.version.serverVersion)
    (h : connect library page.onConnect db = .returns result (some path) db') :
    db'.connectedUser = (firstMisread page).getD page.userID := by
  have hcode := getServerVersion_code db.versions db.errorMsg hversion
  simp only [connect, hconnect, hcode, ne_eq, not_true_eq_false, if_false, parseUser_onConnect hpage] at h
  split_ifs at h
  · obtain ⟨-, -, rfl⟩ := Outcome.returns.inj h
    rfl
  · obtain ⟨-, -, rfl⟩ := Outcome.returns.inj h
    rfl
  all_goals
    cases hparse : parseDbName page.onConnect with
    | none =>
      rw [hparse] at h
      exact Outcome.noConfusion h
    | some dbname =>
      rw [hparse] at h
      obtain ⟨-, -, rfl⟩ := Outcome.returns.inj h
      rfl

theorem connect_reads_back_iff (library : Library) (page : PostgresConnect) (db : Database) (hpage : Plain page)
    (hdb : db.connectToDatabase = false) (hconnect : library.connectdb page.onConnect = none)
    (hversion : 0 < library.version.serverVersion) :
    ReadsBack page (connect library page.onConnect db) ↔
      (∀ user ∈ firstMisread page, user = page.userID) ∧
        (page.dbName = [] → ∀ value ∈ values page, ¬ "dbname".toList <:+: value) := by
  have huser : (∀ user ∈ firstMisread page, user = page.userID) ↔
      (firstMisread page).getD page.userID = page.userID := by
    cases firstMisread page <;> simp
  have hcode := getServerVersion_code db.versions db.errorMsg hversion
  rw [huser]
  simp only [connect, hconnect, hcode, hdb, ne_eq, not_true_eq_false, if_false, parseUser_onConnect hpage,
    Bool.false_or]
  cases hfind : find "dbname".toList page.onConnect with
  | none =>
    obtain ⟨hname, hvalues⟩ := (names_none_iff hpage).mp hfind
    simp only [Option.isSome_none, Bool.not_false, if_true]
    constructor
    · rintro ⟨result, path, db', hreturns, hread, -⟩
      refine ⟨?_, fun _ => hvalues⟩
      split_ifs at hreturns
      all_goals
        obtain ⟨-, -, rfl⟩ := Outcome.returns.inj hreturns
        exact hread
    · rintro ⟨hread, -⟩
      split_ifs
      · exact ⟨_, _, _, rfl, hread, by simp [hname], fun h => absurd hname h⟩
      · exact ⟨_, _, _, rfl, hread, by simp [hname], fun h => absurd hname h⟩
  | some n =>
    simp only [Option.isSome_some, Bool.not_true, Bool.false_eq_true, if_false]
    by_cases hname : page.dbName = []
    · -- the keyword stands in another value, and the path for a database is taken
      apply iff_of_false
      · rintro ⟨result, path, db', hreturns, -, hpath, -⟩
        cases hparse : parseDbName page.onConnect with
        | none =>
          rw [hparse] at hreturns
          exact Outcome.noConfusion hreturns
        | some dbname =>
          rw [hparse] at hreturns
          obtain ⟨-, hpath', -⟩ := Outcome.returns.inj hreturns
          exact hpath.mp (Option.some.inj hpath').symm hname
      · rintro ⟨-, hvalues⟩
        have hnone := (names_none_iff hpage).mpr ⟨hname, hvalues hname⟩
        rw [hfind] at hnone
        exact absurd hnone (by simp)
    · simp only [parseDbName_onConnect hpage hname]
      constructor
      · rintro ⟨result, path, db', hreturns, hread, -⟩
        obtain ⟨-, -, rfl⟩ := Outcome.returns.inj hreturns
        exact ⟨hread, fun h => absurd h hname⟩
      · rintro ⟨hread, -⟩
        exact ⟨_, _, _, rfl, hread, by simp [hname], fun _ => rfl⟩

def answering : Library := ⟨fun _ => none, ⟨90224, [], [], 90224⟩, (0, []), (0, [])⟩

def started : Database := ⟨false, false, [], [], [], ServerVersion.noVersion, []⟩

def shopPage (host : Text) : PostgresConnect :=
  { host := host, hostAddr := "127.0.0.1".toList, port := [], userID := "postgres".toList,
    password := "user=dbname".toList, dbName := "shop".toList, timeout := 0, connStr := [] }

theorem shopPage_plain (host : Text) (h : ' ' ∉ host) : Plain (shopPage host) where
  host := h
  hostAddr := (by decide : ' ' ∉ "127.0.0.1".toList)
  port := List.not_mem_nil
  userID := (by decide : ' ' ∉ "postgres".toList)
  password := (by decide : ' ' ∉ "user=dbname".toList)
  dbName := (by decide : ' ' ∉ "shop".toList)
  connStr := rfl

theorem shop_reads_back : ReadsBack (shopPage "localhost".toList)
    (connect answering (shopPage "localhost".toList).onConnect started) :=
  (connect_reads_back_iff answering (shopPage "localhost".toList) started (shopPage_plain _ (by decide)) rfl rfl
    (by decide)).mpr ⟨by decide, fun h => absurd h (by decide)⟩

theorem users_host_read_as_user :
    Plain (shopPage "users.example".toList) ∧
      parseUser (shopPage "users.example".toList).onConnect = some "127.0.0.1".toList ∧
      ¬ ReadsBack (shopPage "users.example".toList)
        (connect answering (shopPage "users.example".toList).onConnect started) := by
  have hplain := shopPage_plain "users.example".toList (by decide)
  refine ⟨hplain, ?_, ?_⟩
  · rw [parseUser_onConnect hplain]
    decide
  · rintro ⟨result, path, db, hreturns, hread, -⟩
    have huser := connectedUser_of_connect hplain rfl (by decide) hreturns
    rw [hread] at huser
    exact absurd huser (by decide)

end Page

end DbHandler.Connections.Postgres
