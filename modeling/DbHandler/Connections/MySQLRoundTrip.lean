import Mathlib.Algebra.Group.Nat.Defs
import DbHandler.Connections.MySQL

namespace DbHandler.Connections.MySQL

open Foundation.Decimal Foundation.Encoding Foundation.Separators

variable {δ : Type} {mysqlOptions : MysqlOptions δ} {c c' c'' : Connection δ} {tmp tmp' tmp'' : Text}

section Runs

def Leads (mysqlOptions : MysqlOptions δ) (tmp : Text) (c : Connection δ) (tmp' : Text) (c' : Connection δ) : Prop :=
  ∃ n, ∀ fuel, tokenizeConnectionString mysqlOptions (fuel + n) tmp c =
    tokenizeConnectionString mysqlOptions fuel tmp' c'

theorem Leads.refl : Leads mysqlOptions tmp c tmp c := ⟨0, fun _ => rfl⟩

theorem Leads.trans (h : Leads mysqlOptions tmp c tmp' c') (h' : Leads mysqlOptions tmp' c' tmp'' c'') :
    Leads mysqlOptions tmp c tmp'' c'' := by
  obtain ⟨n, hn⟩ := h
  obtain ⟨m, hm⟩ := h'
  refine ⟨m + n, fun fuel => ?_⟩
  rw [← Nat.add_assoc, hn, hm]

variable {key value rest : Text}

def IsKey (key : Text) : Prop := ' ' ∉ key ∧ '=' ∉ key

instance : DecidablePred IsKey := fun key => inferInstanceAs (Decidable (' ' ∉ key ∧ '=' ∉ key))

theorem tokenize_entry (mysqlOptions : MysqlOptions δ) (rest : Text) (hkey : IsKey key) (hvalue : ' ' ∉ value)
    (fuel : ℕ) (c : Connection δ) :
    tokenizeConnectionString mysqlOptions (fuel + 1) (entry key value ++ rest) c =
      match takeEntry mysqlOptions key value c with
      | .goesOn c => tokenizeConnectionString mysqlOptions fuel rest c
      | .breaks c => some (.returns 1 c)
      | .throws c => some (.throws c) := by
  have hword : ' ' ∉ key ++ '=' :: value := by simp [hkey.1, hvalue]
  have htext : entry key value ++ rest = (key ++ '=' :: value) ++ ' ' :: rest := by simp [entry]
  rw [tokenizeConnectionString, if_neg (by simp [entry]), htext]
  cases htake : takeEntry mysqlOptions key value c <;>
    simp only [before_append hword, after_append hword, before_append hkey.2, after_append hkey.2, htake]

theorem leads_entry (hkey : IsKey key) (hvalue : ' ' ∉ value) (h : takeEntry mysqlOptions key value c = .goesOn c') :
    Leads mysqlOptions (entry key value ++ rest) c rest c' := by
  refine ⟨1, fun fuel => ?_⟩
  rw [tokenize_entry mysqlOptions rest hkey hvalue, h]

theorem leads_entryIf (hkey : IsKey key) (hvalue : ' ' ∉ value)
    (h : takeEntry mysqlOptions key value c = .goesOn c') :
    Leads mysqlOptions (entryIf key value ++ rest) c rest (if value = [] then c else c') := by
  by_cases hempty : value = []
  · rw [entryIf, if_pos hempty, if_pos hempty]
    exact Leads.refl
  · rw [entryIf, if_neg hempty, if_neg hempty]
    exact leads_entry hkey hvalue h

theorem tokenize_mono {fuel : ℕ} {o : Outcome δ} (h : tokenizeConnectionString mysqlOptions fuel tmp c = some o) :
    tokenizeConnectionString mysqlOptions (fuel + 1) tmp c = some o := by
  induction fuel generalizing tmp c with
  | zero => simp [tokenizeConnectionString] at h
  | succ fuel ih =>
    rw [tokenizeConnectionString] at h ⊢
    split_ifs at h ⊢ with hempty
    · exact h
    · cases htake : takeEntry mysqlOptions (before '=' (before ' ' tmp)) (after '=' (before ' ' tmp)) c with
      | goesOn d =>
        simp only [htake] at h ⊢
        exact ih h
      | breaks d =>
        simp only [htake] at h ⊢
        exact h
      | throws d =>
        simp only [htake] at h ⊢
        exact h

theorem tokenize_of_le {n m : ℕ} {o : Outcome δ} (h : tokenizeConnectionString mysqlOptions n tmp c = some o)
    (hnm : n ≤ m) : tokenizeConnectionString mysqlOptions m tmp c = some o := by
  obtain ⟨k, rfl⟩ := Nat.exists_eq_add_of_le hnm
  induction k with
  | zero => exact h
  | succ k ih => exact tokenize_mono (ih (by omega))

theorem tokenize_unique {n m : ℕ} {o o' : Outcome δ}
    (h : tokenizeConnectionString mysqlOptions n tmp c = some o)
    (h' : tokenizeConnectionString mysqlOptions m tmp c = some o') : o = o' := by
  have hn := tokenize_of_le h (Nat.le_max_left n m)
  have hm := tokenize_of_le h' (Nat.le_max_right n m)
  rw [hn] at hm
  exact Option.some.inj hm

end Runs

section Flags

theorem foldl_flags {given : BitVec 32} (table : List (BitVec 32 × BitVec 32)) (flags : BitVec 32) (b : ℕ) :
    (table.foldl (fun flags f => if given &&& f.1 = 0 then flags else flags ||| f.2) flags).getLsbD b = true ↔
      flags.getLsbD b = true ∨ ∃ f ∈ table, given &&& f.1 ≠ 0 ∧ f.2.getLsbD b = true := by
  induction table generalizing flags with
  | nil => simp
  | cons f table ih =>
    rw [List.foldl_cons, ih, List.exists_mem_cons_iff]
    by_cases hf : given &&& f.1 = 0
    · rw [if_pos hf]
      simp only [hf, ne_eq, not_true_eq_false, false_and, false_or]
    · rw [if_neg hf, BitVec.getLsbD_or, Bool.or_eq_true, or_assoc]
      simp only [hf, ne_eq, not_false_eq_true, true_and]

theorem addFlags_getLsbD (given flags : BitVec 32) (b : ℕ) : (addFlags given flags).getLsbD b = true ↔
    flags.getLsbD b = true ∨ ∃ f ∈ clientFlags, given &&& f.1 ≠ 0 ∧ f.2.getLsbD b = true :=
  foldl_flags clientFlags flags b

theorem addFlags_zero (flags : BitVec 32) : addFlags 0 flags = flags := by simp [addFlags, clientFlags]

end Flags

section Page

variable {page : MySQLConnect} {port : ℕ}

structure Plain (page : MySQLConnect) (port : ℕ) : Prop where
  host : ' ' ∉ page.host
  userID : ' ' ∉ page.userID
  password : ' ' ∉ page.password
  dbName : ' ' ∉ page.dbName
  socket : ' ' ∉ page.socket
  port : page.port = digits port ∧ 1 ≤ port ∧ port ≤ 65535 ∨ page.port = [] ∧ port = 3306
  flags : page.flags.toNat < 2 ^ 13

def filled (page : MySQLConnect) (port : ℕ) (c : Connection δ) : Connection δ :=
  { c with
    host := if page.host = [] then "localhost".toList else page.host
    user := page.userID
    password := page.password
    port := port
    dbName := if page.dbName = [] then c.dbName else page.dbName
    connectToDatabase := if page.dbName = [] then c.connectToDatabase else true
    socket := if page.socket = [] then c.socket else page.socket
    flags := addFlags page.flags c.flags }

theorem takeEntry_host (value : Text) :
    takeEntry mysqlOptions "host".toList value c = .goesOn { c with host := value } := rfl

theorem takeEntry_user (value : Text) :
    takeEntry mysqlOptions "user".toList value c = .goesOn { c with user := value } := rfl

theorem takeEntry_password (value : Text) :
    takeEntry mysqlOptions "password".toList value c = .goesOn { c with password := value } := rfl

theorem takeEntry_dbname (value : Text) :
    takeEntry mysqlOptions "dbname".toList value c = .goesOn { c with dbName := value, connectToDatabase := true } := rfl

theorem takeEntry_socket (value : Text) :
    takeEntry mysqlOptions "socket".toList value c = .goesOn { c with socket := value } := rfl

theorem takeEntry_port {value : Text} (h : stoi value = some (port : ℤ)) :
    takeEntry mysqlOptions "port".toList value c = .goesOn { c with port := port } := by
  rw [takeEntry, if_neg (by decide), if_neg (by decide), if_neg (by decide), if_pos rfl, h]

theorem takeEntry_flags {value : Text} {n : ℤ} (h : stoi value = some n) :
    takeEntry mysqlOptions "flags".toList value c =
      .goesOn { c with flags := addFlags (BitVec.ofInt 32 n) c.flags } := by
  rw [takeEntry, if_neg (by decide), if_neg (by decide), if_neg (by decide),
    if_neg (by decide), if_neg (by decide), if_neg (by decide), if_pos rfl, h]

theorem leads_port {rest : Text} (hport : page.port = digits port ∧ 1 ≤ port ∧ port ≤ 65535 ∨ page.port = [] ∧ port = 3306) :
    Leads mysqlOptions (entry "port".toList (if page.port = [] then digits 3306 else page.port) ++ rest) c rest
      { c with port := port } := by
  have htext : (if page.port = [] then digits 3306 else page.port) = Nat.toDigits 10 port := by
    rcases hport with ⟨htext, -, -⟩ | ⟨hempty, rfl⟩
    · rw [htext, digits_natCast, if_neg Nat.toDigits_ne_nil]
    · rw [if_pos hempty]
      exact digits_natCast 3306
  have hbound : port < 2 ^ 31 := by
    rcases hport with ⟨-, -, hle⟩ | ⟨-, rfl⟩ <;> omega
  rw [htext]
  apply leads_entry (by decide) (not_mem_toDigits (by decide) port)
  exact takeEntry_port (stoi_toDigits hbound)

theorem leads_flags {rest : Text} (hflags : page.flags.toNat < 2 ^ 13) :
    Leads mysqlOptions ((if page.flags = 0 then [] else entry "flags".toList (digits page.flags.toInt)) ++ rest) c rest
      { c with flags := addFlags page.flags c.flags } := by
  by_cases hzero : page.flags = 0
  · rw [if_pos hzero, hzero, addFlags_zero]
    exact Leads.refl
  · have hint : page.flags.toInt = (page.flags.toNat : ℤ) := by
      rw [BitVec.toInt_eq_toNat_cond, if_pos (by omega)]
    rw [if_neg hzero, hint, digits_natCast]
    apply leads_entry (by decide) (not_mem_toDigits (by decide) _)
    rw [takeEntry_flags (stoi_toDigits (by omega)), ← hint, BitVec.ofInt_toInt]

theorem leads_page (mysqlOptions : MysqlOptions δ) (h : Plain page port) (c : Connection δ) :
    Leads mysqlOptions page.onConnect c page.options (filled page port c) := by
  have hhost : ' ' ∉ (if page.host = [] then "localhost".toList else page.host) := by
    split_ifs
    · decide
    · exact h.host
  unfold MySQLConnect.onConnect
  apply (leads_entry (by decide) hhost (takeEntry_host _)).trans
  apply (leads_port h.port).trans
  apply (leads_entry (by decide) h.userID (takeEntry_user _)).trans
  apply (leads_entry (by decide) h.password (takeEntry_password _)).trans
  apply (leads_entryIf (by decide) h.dbName (takeEntry_dbname _)).trans
  apply (leads_entryIf (by decide) h.socket (takeEntry_socket _)).trans
  apply (leads_flags h.flags).trans
  have hstate : ∀ d : Connection δ, d = filled page port c →
      Leads mysqlOptions page.options d page.options (filled page port c) := by
    rintro d rfl
    exact Leads.refl
  apply hstate
  by_cases hname : page.dbName = [] <;> by_cases hsocket : page.socket = [] <;>
    simp only [filled, hname, hsocket, if_true, if_false]

structure Yields (page : MySQLConnect) (port : ℕ) (c c' : Connection δ) : Prop where
  host : c'.host = if page.host = [] then "localhost".toList else page.host
  user : c'.user = page.userID
  password : c'.password = page.password
  port : c'.port = port
  dbName : c'.dbName = if page.dbName = [] then c.dbName else page.dbName
  socket : c'.socket = if page.socket = [] then c.socket else page.socket
  connectToDatabase : c'.connectToDatabase = true ↔ c.connectToDatabase = true ∨ page.dbName ≠ []
  flags : ∀ b, c'.flags.getLsbD b = true ↔ ∃ f ∈ clientFlags, page.flags &&& f.1 ≠ 0 ∧ f.2.getLsbD b = true
  calls : c'.calls = c.calls
  errorMsg : c'.errorMsg = c.errorMsg

theorem filled_flags (b : ℕ) (h : c.flags = 0) : (filled page port c).flags.getLsbD b = true ↔
    ∃ f ∈ clientFlags, page.flags &&& f.1 ≠ 0 ∧ f.2.getLsbD b = true := by
  have hflags : (filled page port c).flags = addFlags page.flags c.flags := rfl
  rw [hflags, h, addFlags_getLsbD]
  apply or_iff_right
  simp

theorem filled_connectToDatabase : (filled page port c).connectToDatabase = true ↔
    c.connectToDatabase = true ∨ page.dbName ≠ [] := by
  change (if page.dbName = [] then c.connectToDatabase else true) = true ↔ _
  split_ifs with hname
  · simp [hname]
  · simp [hname]

theorem filled_yields (h : c.flags = 0) : Yields page port c (filled page port c) where
  host := rfl
  user := rfl
  password := rfl
  port := rfl
  dbName := rfl
  socket := rfl
  connectToDatabase := filled_connectToDatabase
  flags b := filled_flags b h
  calls := rfl
  errorMsg := rfl

theorem connection_string_round_trip (mysqlOptions : MysqlOptions δ) (page : MySQLConnect) (port : ℕ)
    (c : Connection δ) (hpage : Plain page port) (hoptions : page.options = []) (hflags : c.flags = 0) :
    ∃ fuel c', tokenizeConnectionString mysqlOptions fuel page.onConnect c = some (.returns 0 c') ∧
      Yields page port c c' := by
  obtain ⟨n, hn⟩ := leads_page mysqlOptions hpage c
  refine ⟨1 + n, filled page port c, ?_, filled_yields hflags⟩
  rw [hn, tokenizeConnectionString, if_pos hoptions]

def accepting : MysqlOptions Unit := fun _ _ => (none, ())

def started : Connection Unit := ⟨(), [], [], [], [], [], 0, 0, false, [], []⟩

def shopPage : MySQLConnect :=
  { host := "db".toList, port := digits 3307, userID := "root".toList, password := "a=b".toList,
    dbName := "shop".toList, socket := [], flags := 2050, options := [] }

theorem shopPage_plain : Plain shopPage 3307 :=
  ⟨by decide, by decide, by decide, by decide, by decide, Or.inl ⟨rfl, by omega, by omega⟩, by decide⟩

theorem shop_string_round_trip :
    ∃ fuel c', tokenizeConnectionString accepting fuel shopPage.onConnect started = some (.returns 0 c') ∧
      Yields shopPage 3307 started c' :=
  connection_string_round_trip accepting shopPage 3307 started shopPage_plain rfl rfl

def hostlessPage : MySQLConnect := { shopPage with host := [] }

theorem hostlessPage_plain : Plain hostlessPage 3307 :=
  ⟨by decide, by decide, by decide, by decide, by decide, Or.inl ⟨rfl, by omega, by omega⟩, by decide⟩

theorem empty_host_is_localhost :
    Plain hostlessPage 3307 ∧ hostlessPage.options = [] ∧
      ∃ fuel c', tokenizeConnectionString accepting fuel hostlessPage.onConnect started = some (.returns 0 c') ∧
        c'.host = "localhost".toList ∧ c'.host ≠ hostlessPage.host := by
  obtain ⟨n, hn⟩ := leads_page accepting hostlessPage_plain started
  refine ⟨hostlessPage_plain, rfl, 1 + n, filled hostlessPage 3307 started, ?_, rfl, ?_⟩
  · rw [hn]
    exact if_pos rfl
  · change "localhost".toList ≠ []
    decide

end Page

section Options

def Passable (value : Text) : Prop := ' ' ∉ value ∧ Char.ofNat 0 ∉ value

instance : DecidablePred Passable := fun value =>
  inferInstanceAs (Decidable (' ' ∉ value ∧ Char.ofNat 0 ∉ value))

theorem upToNul_of_not_mem {value : Text} (h : Char.ofNat 0 ∉ value) : upToNul value = value := before_of_not_mem h

theorem upToNul_passable {value : Text} (h : ' ' ∉ value) : Passable (upToNul value) :=
  ⟨fun hblank => h ((List.takeWhile_sublist _).subset hblank), not_mem_before _ value⟩

def Control.connection : Control δ → Connection δ
  | .goesOn c => c
  | .breaks c => c
  | .throws c => c

variable {key value : Text}

theorem setOption_eq (option : MysqlOption) (value : Text) (c : Connection δ) :
    setOption mysqlOptions option value c =
      match (mysqlOptions c.db (option, utf8 (upToNul value))).1 with
      | none => .goesOn { c with
          db := (mysqlOptions c.db (option, utf8 (upToNul value))).2
          calls := c.calls ++ [(option, utf8 (upToNul value))] }
      | some err => .breaks { c with
          db := (mysqlOptions c.db (option, utf8 (upToNul value))).2
          calls := c.calls ++ [(option, utf8 (upToNul value))]
          errorMsg := c.errorMsg ++ [err] } := by
  have hrange : MysqlOption.optConnectTimeout.value ≤ option.value ∧ option.value ≤ MysqlOption.optSslMode.value := by
    cases option <;> decide
  exact if_pos hrange

theorem takeEntry_calls (mysqlOptions : MysqlOptions δ) (key value : Text) (c : Connection δ) :
    (takeEntry mysqlOptions key value c).connection.calls = c.calls ∨
    (takeEntry mysqlOptions key value c).connection.calls =
      c.calls ++ [(optionNamed key, utf8 (upToNul value))] := by
  unfold takeEntry
  split_ifs
  · exact Or.inl rfl
  · exact Or.inl rfl
  · exact Or.inl rfl
  · cases stoi value <;> exact Or.inl rfl
  · exact Or.inl rfl
  · exact Or.inl rfl
  · cases stoi value <;> exact Or.inl rfl
  · rw [setOption_eq]
    cases (mysqlOptions c.db (optionNamed key, utf8 (upToNul value))).1 <;> exact Or.inr rfl

theorem tokenize_calls {fuel : ℕ} {o : Outcome δ} (h : tokenizeConnectionString mysqlOptions fuel tmp c = some o) :
    ∀ call ∈ o.connection.calls, call ∈ c.calls ∨ ∃ value, Passable value ∧ call.2 = utf8 value := by
  induction fuel generalizing tmp c with
  | zero => simp [tokenizeConnectionString] at h
  | succ fuel ih =>
    rw [tokenizeConnectionString] at h
    split_ifs at h with hempty
    · obtain rfl := Option.some.inj h
      intro call hcall
      exact Or.inl hcall
    · have hvalue : ' ' ∉ after '=' (before ' ' tmp) := by
        intro hblank
        apply not_mem_before ' ' tmp
        by_cases heq : '=' ∈ before ' ' tmp
        · rw [← before_append_after heq]
          exact List.mem_append_right _ (List.mem_cons_of_mem _ hblank)
        · rwa [after_of_not_mem heq] at hblank
      have htaken : ∀ call ∈ (takeEntry mysqlOptions (before '=' (before ' ' tmp)) (after '=' (before ' ' tmp))
          c).connection.calls, call ∈ c.calls ∨ ∃ value, Passable value ∧ call.2 = utf8 value := by
        intro call hcall
        rcases takeEntry_calls mysqlOptions (before '=' (before ' ' tmp)) (after '=' (before ' ' tmp)) c with hsame | hadded
        · rw [hsame] at hcall
          exact Or.inl hcall
        · rw [hadded] at hcall
          rcases List.mem_append.mp hcall with hold | hnew
          · exact Or.inl hold
          · obtain rfl := List.mem_singleton.mp hnew
            exact Or.inr ⟨_, upToNul_passable hvalue, rfl⟩
      cases htake : takeEntry mysqlOptions (before '=' (before ' ' tmp)) (after '=' (before ' ' tmp)) c with
      | goesOn d =>
        simp only [htake] at h
        rw [htake] at htaken
        intro call hcall
        rcases ih h call hcall with hold | hnew
        · exact htaken call hold
        · exact Or.inr hnew
      | breaks d =>
        simp only [htake] at h
        rw [htake] at htaken
        obtain rfl := Option.some.inj h
        exact htaken
      | throws d =>
        simp only [htake] at h
        rw [htake] at htaken
        obtain rfl := Option.some.inj h
        exact htaken

def Accepts (mysqlOptions : MysqlOptions δ) : δ → List Call → Prop
  | _, [] => True
  | _, [_] => True
  | db, call :: next :: calls =>
    (mysqlOptions db call).1 = none ∧ Accepts mysqlOptions (mysqlOptions db call).2 (next :: calls)

def IsOption (mysqlOptions : MysqlOptions δ) (key : Text) : Prop :=
  ∀ value c, takeEntry mysqlOptions key value c = setOption mysqlOptions (optionNamed key) value c

def callOf (e : Text × Text) : Call := (optionNamed e.1, utf8 e.2)

theorem tokenize_entries (es : List (Text × Text)) (hkeys : ∀ e ∈ es, IsKey e.1)
    (hoptions : ∀ e ∈ es, IsOption mysqlOptions e.1) (hvalues : ∀ e ∈ es, Passable e.2) (c : Connection δ) :
    ∃ fuel o made, tokenizeConnectionString mysqlOptions fuel (es.flatMap fun e => entry e.1 e.2) c = some o ∧
      o.connection.calls = c.calls ++ made ∧ made <+: es.map callOf ∧
        (made = es.map callOf ↔ Accepts mysqlOptions c.db (es.map callOf)) := by
  induction es generalizing c with
  | nil => exact ⟨1, .returns 0 c, [], rfl, by simp [Outcome.connection], List.prefix_refl _, by simp [Accepts]⟩
  | cons e es ih =>
    obtain ⟨hkey, hkeys⟩ := List.forall_mem_cons.mp hkeys
    obtain ⟨hoption, hoptions⟩ := List.forall_mem_cons.mp hoptions
    obtain ⟨hvalue, hvalues⟩ := List.forall_mem_cons.mp hvalues
    have htake := hoption e.2 c
    rw [setOption_eq, upToNul_of_not_mem hvalue.2] at htake
    have hturn (fuel : ℕ) := tokenize_entry mysqlOptions (es.flatMap fun e => entry e.1 e.2) hkey hvalue.1 fuel c
    simp only [htake] at hturn
    rw [List.flatMap_cons, List.map_cons]
    cases hanswer : (mysqlOptions c.db (optionNamed e.1, utf8 e.2)).1 with
    | none =>
      simp only [hanswer] at hturn
      obtain ⟨fuel, o, made, hrun, hcalls, hmore, haccepts⟩ := ih hkeys hoptions hvalues
        { c with
          db := (mysqlOptions c.db (callOf e)).2
          calls := c.calls ++ [callOf e] }
      refine ⟨fuel + 1, o, callOf e :: made, (hturn fuel).trans hrun, ?_, ?_, ?_⟩
      · rw [hcalls]
        simp
      · exact List.cons_prefix_cons.mpr ⟨rfl, hmore⟩
      · rw [List.cons_inj_right, haccepts]
        cases es with
        | nil => simp [Accepts]
        | cons next es =>
          have hnone : (mysqlOptions c.db (callOf e)).1 = none := hanswer
          simp [Accepts, hnone]
    | some err =>
      simp only [hanswer] at hturn
      refine ⟨1, _, [callOf e], hturn 0, rfl, ?_, ?_⟩
      · exact List.cons_prefix_cons.mpr ⟨rfl, List.nil_prefix⟩
      · cases es with
        | nil => simp [Accepts]
        | cons next es =>
          have hsome : (mysqlOptions c.db (callOf e)).1 ≠ none := by
            intro hnone
            rw [callOf, hanswer] at hnone
            exact absurd hnone (by simp)
          simp [Accepts, hsome]

def requested (dlg : MySQLAdvanced) : List Call :=
  (if dlg.defaultAuth = [] then [] else [(.defaultAuth, utf8 dlg.defaultAuth)]) ++
  ((if dlg.clearText then [(.enableCleartextPlugin, utf8 ['1'])] else []) ++
  ((if dlg.initCommand = [] then [] else [(.initCommand, utf8 dlg.initCommand)]) ++
  ((if dlg.optBind = [] then [] else [(.optBind, utf8 dlg.optBind)]) ++
  ((if dlg.handleExpiredPass then [(.optCanHandleExpiredPasswords, utf8 ['1'])] else []) ++
  ((if dlg.optCompress then [(.optCompress, utf8 ['0'])] else []) ++
  (if dlg.connectAttrDelete = [] then [] else [(.optConnectAttrDelete, utf8 dlg.connectAttrDelete)]))))))

def texts (dlg : MySQLAdvanced) : List Text := [dlg.defaultAuth, dlg.initCommand, dlg.optBind, dlg.connectAttrDelete]

variable {dlg : MySQLAdvanced}

theorem eq_of_mem_unless {β : Type} {p : Prop} [Decidable p] {x y : β} (h : y ∈ if p then [] else [x]) : y = x := by
  split_ifs at h
  · exact absurd h List.not_mem_nil
  · exact List.mem_singleton.mp h

theorem eq_of_mem_if {β : Type} {p : Prop} [Decidable p] {x y : β} (h : y ∈ if p then [x] else []) : y = x := by
  split_ifs at h
  · exact List.mem_singleton.mp h
  · exact absurd h List.not_mem_nil

theorem mem_entries {e : Text × Text} (he : e ∈ dlg.entries) :
    e = ("MYSQL_DEFAULT_AUTH".toList, dlg.defaultAuth) ∨ e = ("MYSQL_ENABLE_CLEARTEXT_PLUGIN".toList, ['1']) ∨
      e = ("MYSQL_INIT_COMMAND".toList, dlg.initCommand) ∨ e = ("MYSQL_OPT_BIND".toList, dlg.optBind) ∨
      e = ("MYSQL_OPT_CAN_HANDLE_EXPIRED_PASSWORD".toList, ['1']) ∨ e = ("MYSQL_OPT_COMPRESS".toList, ['0']) ∨
      e = ("MYSQL_OPT_CONNECT_ATTR_DELETE".toList, dlg.connectAttrDelete) := by
  unfold MySQLAdvanced.entries at he
  refine (List.mem_append.mp he).imp eq_of_mem_unless fun he => ?_
  refine (List.mem_append.mp he).imp eq_of_mem_if fun he => ?_
  refine (List.mem_append.mp he).imp eq_of_mem_unless fun he => ?_
  refine (List.mem_append.mp he).imp eq_of_mem_unless fun he => ?_
  refine (List.mem_append.mp he).imp eq_of_mem_if fun he => ?_
  exact (List.mem_append.mp he).imp eq_of_mem_if eq_of_mem_unless

theorem entries_isKey : ∀ e ∈ dlg.entries, IsKey e.1 := by
  intro e he
  rcases mem_entries he with rfl | rfl | rfl | rfl | rfl | rfl | rfl
  · exact (by decide : IsKey "MYSQL_DEFAULT_AUTH".toList)
  · exact (by decide : IsKey "MYSQL_ENABLE_CLEARTEXT_PLUGIN".toList)
  · exact (by decide : IsKey "MYSQL_INIT_COMMAND".toList)
  · exact (by decide : IsKey "MYSQL_OPT_BIND".toList)
  · exact (by decide : IsKey "MYSQL_OPT_CAN_HANDLE_EXPIRED_PASSWORD".toList)
  · exact (by decide : IsKey "MYSQL_OPT_COMPRESS".toList)
  · exact (by decide : IsKey "MYSQL_OPT_CONNECT_ATTR_DELETE".toList)

theorem entries_isOption (mysqlOptions : MysqlOptions δ) (dlg : MySQLAdvanced) :
    ∀ e ∈ dlg.entries, IsOption mysqlOptions e.1 := by
  intro e he
  rcases mem_entries he with rfl | rfl | rfl | rfl | rfl | rfl | rfl
  all_goals exact fun _ _ => rfl

theorem optionNamed_ne_expired : ∀ e ∈ dlg.entries, optionNamed e.1 ≠ .optCanHandleExpiredPasswords := by
  intro e he
  rcases mem_entries he with rfl | rfl | rfl | rfl | rfl | rfl | rfl
  all_goals exact fun h => MysqlOption.noConfusion h

theorem entries_passable (h : ∀ value ∈ texts dlg, Passable value) : ∀ e ∈ dlg.entries, Passable e.2 := by
  intro e he
  simp only [texts, List.forall_mem_cons] at h
  obtain ⟨hauth, hinit, hbind, hattr, -⟩ := h
  rcases mem_entries he with rfl | rfl | rfl | rfl | rfl | rfl | rfl
  · exact hauth
  · exact ⟨by decide, by decide⟩
  · exact hinit
  · exact hbind
  · exact ⟨by decide, by decide⟩
  · exact ⟨by decide, by decide⟩
  · exact hattr

theorem map_entries (h : dlg.handleExpiredPass = false) : dlg.entries.map callOf = requested dlg := by
  simp only [MySQLAdvanced.entries, requested, h, List.map_append, apply_ite (List.map callOf), List.map_nil,
    List.map_cons, Bool.false_eq_true, if_false]
  rfl

theorem exists_requested {value : Text} (hvalue : value ∈ texts dlg) (hne : value ≠ []) :
    ∃ option, (option, utf8 value) ∈ requested dlg := by
  simp only [texts, List.mem_cons, List.not_mem_nil, or_false] at hvalue
  rcases hvalue with rfl | rfl | rfl | rfl
  · exact ⟨.defaultAuth, by simp [requested, hne]⟩
  · exact ⟨.initCommand, by simp [requested, hne]⟩
  · exact ⟨.optBind, by simp [requested, hne]⟩
  · exact ⟨.optConnectAttrDelete, by simp [requested, hne]⟩

theorem flagBoxes_lt (boxes : List (Bool × BitVec 32)) (hboxes : ∀ b ∈ boxes, b.2.toNat < 2 ^ 13) (flags : BitVec 32)
    (hflags : flags.toNat < 2 ^ 13) :
    (boxes.foldl (fun flags box => if box.1 then flags ||| box.2 else flags) flags).toNat < 2 ^ 13 := by
  induction boxes generalizing flags with
  | nil => exact hflags
  | cons b boxes ih =>
    obtain ⟨hb, hboxes⟩ := List.forall_mem_cons.mp hboxes
    apply ih hboxes
    change (if b.1 then flags ||| b.2 else flags).toNat < 2 ^ 13
    split_ifs
    · rw [BitVec.toNat_or]
      exact Nat.or_lt_two_pow hflags hb
    · exact hflags

theorem onAdvanced_plain {page : MySQLConnect} {port : ℕ} (dlg : MySQLAdvanced) (h : Plain page port) :
    Plain (page.onAdvanced dlg) port where
  host := h.host
  userID := h.userID
  password := h.password
  dbName := h.dbName
  socket := h.socket
  port := h.port
  flags := by
    apply flagBoxes_lt _ _ _ h.flags
    simp [MySQLAdvanced.flagBoxes]

theorem passable_of_applied {fuel : ℕ} {o : Outcome δ} (hcalls : c.calls = [])
    (h : tokenizeConnectionString mysqlOptions fuel tmp c = some o) (hperm : o.connection.calls.Perm (requested dlg)) :
    ∀ value ∈ texts dlg, Passable value := by
  intro value hvalue
  by_cases hempty : value = []
  · rw [hempty]
    exact ⟨List.not_mem_nil, List.not_mem_nil⟩
  · obtain ⟨option, hrequested⟩ := exists_requested hvalue hempty
    rcases tokenize_calls h _ (hperm.symm.subset hrequested) with hold | ⟨passed, hpassed, heq⟩
    · rw [hcalls] at hold
      exact absurd hold List.not_mem_nil
    · rw [utf8_injective heq]
      exact hpassed

theorem options_applied_iff (mysqlOptions : MysqlOptions δ) (page : MySQLConnect) (port : ℕ) (dlg : MySQLAdvanced)
    (c : Connection δ) (hpage : Plain page port) (hoptions : page.options = []) (hcalls : c.calls = []) :
    (∃ fuel o, tokenizeConnectionString mysqlOptions fuel (page.onAdvanced dlg).onConnect c = some o ∧
        o.connection.calls.Perm (requested dlg)) ↔
      dlg.handleExpiredPass = false ∧ (∀ value ∈ texts dlg, Passable value) ∧
        Accepts mysqlOptions c.db (requested dlg) := by
  have hentries : (page.onAdvanced dlg).options = dlg.entries.flatMap fun e => entry e.1 e.2 := by
    rw [MySQLConnect.onAdvanced, hoptions, List.nil_append]
  obtain ⟨n, hlead⟩ := leads_page mysqlOptions (onAdvanced_plain dlg hpage) c
  rw [hentries] at hlead
  -- with passable texts the whole run is known
  have hrun (h : ∀ value ∈ texts dlg, Passable value) := tokenize_entries dlg.entries entries_isKey
    (entries_isOption mysqlOptions dlg) (entries_passable h) (filled (page.onAdvanced dlg) port c)
  constructor
  · rintro ⟨fuel, o, houtcome, hperm⟩
    have htexts := passable_of_applied hcalls houtcome hperm
    obtain ⟨fuel', o', made, hrun', hmade, hmore, haccepts⟩ := hrun htexts
    obtain rfl : o = o' := tokenize_unique houtcome ((hlead fuel').trans hrun')
    have hcalls' : o.connection.calls = made := by
      rw [hmade]
      change c.calls ++ made = made
      rw [hcalls, List.nil_append]
    rw [hcalls'] at hperm
    have hexpired : dlg.handleExpiredPass = false := by
      by_contra h
      have hchecked : dlg.handleExpiredPass = true := by simpa using h
      have hrequested : (MysqlOption.optCanHandleExpiredPasswords, utf8 ['1']) ∈ requested dlg := by
        simp [requested, hchecked]
      obtain ⟨e, he, heq⟩ := List.mem_map.mp (hmore.subset (hperm.symm.subset hrequested))
      exact optionNamed_ne_expired e he (congrArg Prod.fst heq)
    refine ⟨hexpired, htexts, ?_⟩
    rw [map_entries hexpired] at hmore haccepts
    exact haccepts.mp (hmore.eq_of_length hperm.length_eq)
  · rintro ⟨hexpired, htexts, haccepts⟩
    obtain ⟨fuel, o, made, hrun', hmade, -, hall⟩ := hrun htexts
    rw [map_entries hexpired] at hall
    have hmade' : made = requested dlg := hall.mpr haccepts
    refine ⟨fuel + n, o, (hlead fuel).trans hrun', ?_⟩
    rw [hmade, hmade']
    change (c.calls ++ requested dlg).Perm (requested dlg)
    rw [hcalls, List.nil_append]

def untouched : MySQLAdvanced :=
  ⟨false, false, false, false, false, false, false, false, false, false, false, false, false, [], false, [], [], false,
    false, []⟩

def boundCompressed : MySQLAdvanced := { untouched with optCompress := true, optBind := "10.0.0.1".toList }

theorem bound_compressed_applied :
    ∃ fuel o, tokenizeConnectionString accepting fuel (shopPage.onAdvanced boundCompressed).onConnect started = some o ∧
      o.connection.calls.Perm (requested boundCompressed) :=
  (options_applied_iff accepting shopPage 3307 boundCompressed started shopPage_plain rfl rfl).mpr
    ⟨rfl, by decide, rfl, trivial⟩

def initialised : MySQLAdvanced := { untouched with initCommand := "SET NAMES utf8".toList }

theorem init_command_not_applied :
    Plain shopPage 3307 ∧ shopPage.options = [] ∧
      ¬ ∃ fuel o, tokenizeConnectionString accepting fuel (shopPage.onAdvanced initialised).onConnect started = some o ∧
        o.connection.calls.Perm (requested initialised) := by
  refine ⟨shopPage_plain, rfl, ?_⟩
  rintro ⟨fuel, o, h, hperm⟩
  have hpassable := passable_of_applied rfl h hperm initialised.initCommand (by decide)
  exact absurd hpassable (by decide)

end Options

end DbHandler.Connections.MySQL
