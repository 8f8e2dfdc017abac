import Mathlib.Algebra.Group.Nat.Defs
import DbHandler.Connections.Odbc

namespace DbHandler.Connections.ODBC

open Foundation.Attributes Foundation.Separators

def signs : Signs UInt16 := ⟨unit ';', unit '=', unit '{', unit '}', by decide, by decide⟩

section Units

def Storable (t : Text) : Prop := ∀ c ∈ t, 0 < c.toNat ∧ c.toNat < 2 ^ 16

instance : DecidablePred Storable := fun t => List.decidableBAll (fun c : Char => 0 < c.toNat ∧ c.toNat < 2 ^ 16) t

theorem storable_append {a b : Text} : Storable (a ++ b) ↔ Storable a ∧ Storable b := List.forall_mem_append

theorem units_append (a b : Text) : units (a ++ b) = units a ++ units b := List.map_append

theorem units_length (a : Text) : (units a).length = a.length := List.length_map _

variable {t value : Text} {c : Char}

theorem unit_toNat (h : c.toNat < 2 ^ 16) : (unit c).toNat = c.toNat := by
  rw [unit, UInt16.toNat_ofNat']
  exact Nat.mod_eq_of_lt h

theorem unit_injOn {d : Char} (hc : c.toNat < 2 ^ 16) (hd : d.toNat < 2 ^ 16) (h : unit c = unit d) : c = d := by
  have hnat := congrArg UInt16.toNat h
  rw [unit_toNat hc, unit_toNat hd] at hnat
  exact Char.toNat_inj.mp hnat

theorem mem_units_iff (ht : Storable t) (hc : c.toNat < 2 ^ 16) : unit c ∈ units t ↔ c ∈ t := by
  constructor
  · intro h
    obtain ⟨d, hd, heq⟩ := List.mem_map.mp h
    rwa [← unit_injOn (ht d hd).2 hc heq]
  · exact List.mem_map_of_mem

theorem zero_not_mem_units (ht : Storable t) : 0 ∉ units t := by
  intro h
  obtain ⟨d, hd, heq⟩ := List.mem_map.mp h
  have hnat := congrArg UInt16.toNat heq
  rw [unit_toNat (ht d hd).2] at hnat
  have hpos := (ht d hd).1
  simp only [UInt16.toNat_zero] at hnat
  omega

theorem upToNul_of_storable (ht : Storable t) : upToNul t = t := by
  apply before_of_not_mem (x := Char.ofNat 0)
  intro h
  exact absurd (ht _ h).1 (by decide)

theorem head_units_iff (ht : Storable t) (hc : c.toNat < 2 ^ 16) : (units t).head? = some (unit c) ↔ t.head? = some c := by
  cases t with
  | nil => simp [units]
  | cons d t =>
    simp only [units, List.map_cons, List.head?_cons, Option.some.injEq]
    constructor
    · exact unit_injOn (ht d List.mem_cons_self).2 hc
    · rintro rfl
      rfl

end Units

section Buffer

variable {cap j : ℕ} {t u : List UInt16}

def padded (cap : ℕ) (t : List UInt16) : List UInt16 := t ++ List.replicate (cap - t.length) 0

theorem sqlString_padded (ht : 0 ∉ t) (k : ℕ) : sqlString (t ++ List.replicate k 0) = t := by
  cases k with
  | zero =>
    rw [List.replicate_zero, List.append_nil]
    exact before_of_not_mem ht
  | succ k => exact before_append ht

theorem writeAtEnd_padded (u : List UInt16) (j : ℕ) (ht : 0 ∉ t) (hcap : t.length ≤ cap) :
    writeAtEnd (padded cap t) (u ++ List.replicate j 0) =
      if t.length + u.length + j ≤ cap then some (padded cap (t ++ u)) else none := by
  have hlength : (padded cap t).length = cap := by
    simp only [padded, List.length_append, List.length_replicate]
    omega
  have hplace : (sqlString (padded cap t)).length = t.length := by rw [padded, sqlString_padded ht]
  simp only [writeAtEnd, hplace, hlength, List.length_append, List.length_replicate, ← Nat.add_assoc]
  split_ifs with hroom
  · congr 1
    rw [padded, List.take_left, Nat.add_assoc, List.drop_append, List.drop_replicate]
    rw [List.drop_eq_nil_of_le (by omega), List.nil_append, padded, List.append_assoc, List.append_assoc,
      List.replicate_append_replicate]
    congr 4
    simp only [List.length_append]
    omega
  · rfl

variable {text src : Text} {m : List UInt16}

theorem ucToStrCpy_iff (htext : Storable text) (hcap : text.length ≤ cap) (hsrc : Storable src) :
    ucToStrCpy (padded cap (units text)) src = some m ↔
      text.length + src.length + 2 ≤ cap ∧ m = padded cap (units (text ++ src)) := by
  have hunits : (units text).length ≤ cap := by rwa [units_length]
  have hwrite := writeAtEnd_padded (units src) 2 (zero_not_mem_units htext) hunits
  rw [units_length, units_length, ← units_append] at hwrite
  rw [ucToStrCpy, upToNul_of_storable hsrc]
  change writeAtEnd (padded cap (units text)) (units src ++ List.replicate 2 0) = some m ↔ _
  rw [hwrite]
  split_ifs with hroom
  · simp [hroom, eq_comm]
  · simp [hroom]

theorem copyUcToUc_iff (htext : Storable text) (hcap : text.length ≤ cap) (hsrc : Storable src) :
    copyUcToUc (padded cap (units text)) (credential src) = some m ↔
      text.length + src.length + 1 ≤ cap ∧ m = padded cap (units (text ++ src)) := by
  have hunits : (units text).length ≤ cap := by rwa [units_length]
  have hwrite := writeAtEnd_padded (units src) 1 (zero_not_mem_units htext) hunits
  have hsource : sqlString (units src ++ [0, 0]) = units src := sqlString_padded (zero_not_mem_units hsrc) 2
  rw [units_length, units_length, ← units_append] at hwrite
  rw [copyUcToUc, credential, upToNul_of_storable hsrc, hsource]
  change writeAtEnd (padded cap (units text)) (units src ++ List.replicate 1 0) = some m ↔ _
  rw [hwrite]
  split_ifs with hroom
  · simp [hroom, eq_comm]
  · simp [hroom]

theorem cleared_eq (size : ℕ) : cleared size = padded size (units []) := by simp [cleared, padded, units]

end Buffer

section Reading

variable {t : List UInt16} {key value : Text} {e : List (Text × Text)}

def Reads (t : List UInt16) (e : List (Text × Text)) : Prop :=
  ∃ n attributes, readAttributes signs n t = some attributes ∧
    attributes.map (fun a => (a.1.map UInt16.toNat, a.2.map UInt16.toNat)) =
      e.map fun a => (a.1.map Char.toNat, a.2.map Char.toNat)

theorem eq_units {u : List UInt16} (h : u.map UInt16.toNat = value.map Char.toNat) : u = units value := by
  have hunits : value.map unit = (value.map Char.toNat).map UInt16.ofNat := by simp [unit, Function.comp_def]
  rw [units, hunits, ← h]
  simp [Function.comp_def]

theorem units_toNat (h : Storable value) : (units value).map UInt16.toNat = value.map Char.toNat := by
  rw [units, List.map_map]
  apply List.map_congr_left
  intro c hc
  exact unit_toNat (h c hc).2

theorem reads_nil : Reads [] [] := ⟨1, [], rfl, rfl⟩

theorem reads_separator_iff : Reads (unit ';' :: t) e ↔ Reads t e := by
  have hstep : ∀ n, readAttributes signs (n + 1) (unit ';' :: t) = readAttributes signs n t := by
    intro n
    rw [readAttributes]
    exact if_pos rfl
  constructor
  · rintro ⟨n, attributes, h, heq⟩
    cases n with
    | zero => simp [readAttributes] at h
    | succ n => exact ⟨n, attributes, (hstep n).symm.trans h, heq⟩
  · rintro ⟨n, attributes, h, heq⟩
    exact ⟨n + 1, attributes, (hstep n).trans h, heq⟩

structure IsKeyword (key : Text) : Prop where
  ne_nil : units key ≠ []
  assignment : unit '=' ∉ units key
  separator : unit ';' ∉ units key
  storable : Storable key

theorem readAttributes_keyword {n : ℕ} (hkey : IsKeyword key) :
    readAttributes signs (n + 1) (units key ++ unit '=' :: t) =
      match readValue signs t with
      | none => none
      | some (value, rest) =>
        if rest = [] ∨ rest.head? = some (unit ';') then
          (readAttributes signs n rest).map ((units key, value) :: ·)
        else none := by
  refine (readAttributes_entry (n := n) hkey.ne_nil hkey.assignment hkey.separator).trans ?_
  cases readValue signs t <;> rfl

theorem Reads.first_value {key' : Text} (hkey : IsKeyword key)
    (h : Reads (units key ++ unit '=' :: t) ((key', value) :: e)) :
    ∃ rest, readValue signs t = some (units value, rest) ∧ (rest = [] ∨ rest.head? = some (unit ';')) ∧
      Reads rest e ∧ units key = units key' := by
  obtain ⟨n, attributes, h, heq⟩ := h
  cases n with
  | zero => simp [readAttributes] at h
  | succ n =>
    rw [readAttributes_keyword hkey] at h
    cases hvalue : readValue signs t with
    | none => simp [hvalue] at h
    | some r =>
      obtain ⟨v, rest⟩ := r
      simp only [hvalue] at h
      split_ifs at h with hend
      obtain ⟨as, has, rfl⟩ := Option.map_eq_some_iff.mp h
      rw [List.map_cons, List.map_cons] at heq
      obtain ⟨hfirst, hothers⟩ := List.cons.inj heq
      refine ⟨rest, ?_, hend, ⟨n, as, has, hothers⟩, eq_units (Prod.mk.inj hfirst).1⟩
      have hv : v = units value := eq_units (Prod.mk.inj hfirst).2
      rw [hv]

theorem Reads.of_value {rest : List UInt16} (hkey : IsKeyword key) (hvalue : Storable value)
    (h : readValue signs t = some (units value, rest)) (hend : rest = [] ∨ rest.head? = some (unit ';'))
    (hrest : Reads rest e) : Reads (units key ++ unit '=' :: t) ((key, value) :: e) := by
  obtain ⟨n, as, has, heq⟩ := hrest
  refine ⟨n + 1, (units key, units value) :: as, ?_, ?_⟩
  · rw [readAttributes_keyword hkey, h]
    simp only
    rw [if_pos hend, has]
    rfl
  · rw [List.map_cons, List.map_cons, heq, units_toNat hkey.storable, units_toNat hvalue]

theorem reads_entry_iff (hkey : IsKeyword key) (hvalue : Storable value) (hseparator : ';' ∉ value) :
    Reads (units key ++ unit '=' :: (units value ++ unit ';' :: t)) ((key, value) :: e) ↔
      value.head? ≠ some '{' ∧ Reads t e := by
  have hunits : unit ';' ∉ units value := fun h => hseparator ((mem_units_iff hvalue (by decide)).mp h)
  have hopening := head_units_iff (c := '{') hvalue (by decide)
  have hplain (h : value.head? ≠ some '{') : readValue signs (units value ++ unit ';' :: t) =
      some (units value, unit ';' :: t) :=
    readValue_plain hunits (fun hhead => h (hopening.mp hhead)) (Or.inr rfl) (by decide)
  constructor
  · intro h
    obtain ⟨rest, hread, -, hrest, -⟩ := Reads.first_value hkey h
    have hhead : value.head? ≠ some '{' :=
      fun hhead => not_opening_of_readValue hunits hread (hopening.mpr hhead)
    rw [hplain hhead] at hread
    obtain ⟨-, rfl⟩ := Prod.mk.inj (Option.some.inj hread)
    exact ⟨hhead, reads_separator_iff.mp hrest⟩
  · rintro ⟨hhead, h⟩
    exact Reads.of_value hkey hvalue (hplain hhead) (Or.inr rfl) (reads_separator_iff.mpr h)

theorem reads_last_iff (hkey : IsKeyword key) (hvalue : Storable value) :
    Reads (units key ++ unit '=' :: units value) [(key, value)] ↔ value.head? ≠ some '{' ∧ ';' ∉ value := by
  have hopening := head_units_iff (c := '{') hvalue (by decide)
  have hsemicolon := mem_units_iff (c := ';') hvalue (by decide)
  constructor
  · intro h
    obtain ⟨rest, hread, -⟩ := Reads.first_value hkey h
    obtain ⟨hhead, hseparator⟩ := plain_of_readValue hread
    exact ⟨fun hopen => hhead (hopening.mpr hopen), fun hmem => hseparator (hsemicolon.mpr hmem)⟩
  · rintro ⟨hhead, hseparator⟩
    have hread : readValue signs (units value ++ []) = some (units value, []) :=
      readValue_plain (fun hmem => hseparator (hsemicolon.mp hmem)) (fun hopen => hhead (hopening.mp hopen))
        (Or.inl rfl) (by decide)
    rw [List.append_nil] at hread
    exact Reads.of_value hkey hvalue hread (Or.inl rfl) reads_nil

theorem Reads.storable (h : Reads t e) (ht : 0 ∉ t) : ∀ a ∈ e, Storable a.2 := by
  obtain ⟨n, attributes, h, heq⟩ := h
  intro a ha c hc
  have hmem : (a.1.map Char.toNat, a.2.map Char.toNat) ∈
      attributes.map fun a => (a.1.map UInt16.toNat, a.2.map UInt16.toNat) := by
    rw [heq]
    exact List.mem_map_of_mem (f := fun a : Text × Text => (a.1.map Char.toNat, a.2.map Char.toNat)) ha
  obtain ⟨b, hb, hcodes⟩ := List.mem_map.mp hmem
  have hvalue : b.2.map UInt16.toNat = a.2.map Char.toNat := (Prod.mk.inj hcodes).2
  have hcode : c.toNat ∈ b.2.map UInt16.toNat := by
    rw [hvalue]
    exact List.mem_map_of_mem hc
  obtain ⟨u, hu, hnat⟩ := List.mem_map.mp hcode
  have hut : u ∈ t := readAttributes_subset h b hb hu
  constructor
  · rw [← hnat]
    apply Nat.pos_of_ne_zero
    intro hzero
    apply ht
    have hu0 : u = 0 := UInt16.toNat_inj.mp hzero
    rwa [← hu0]
  · rw [← hnat]
    exact UInt16.toNat_lt u

end Reading

section Credentials

variable {driver : List UInt16} {dsn user password : Text}

def namesPostgres (driver : List UInt16) : Bool := (units "PostgreSQL".toList).isPrefixOf (sqlString driver)

theorem namesPostgres_of_isPostgres (h : isPostgres driver = true) : namesPostgres driver = true := by
  rw [isPostgres, List.isPrefixOf_iff_prefix] at h
  rw [namesPostgres, List.isPrefixOf_iff_prefix]
  have hshort : units "PostgreSQL".toList <+: units "PostgreSQL ".toList := by decide
  exact hshort.trans h

def postgresAttributes (driver : List UInt16) : List (Text × Text) :=
  if namesPostgres driver then
    [("UseServerSidePrepare".toList, "1".toList), ("ShowSystemTables".toList, "1".toList)]
  else []

def expected (driver : List UInt16) (dsn user password : Text) : List (Text × Text) :=
  ("DSN".toList, dsn) :: (postgresAttributes driver ++ [("UID".toList, user), ("PWD".toList, password)])

def CredentialsReach (driver : List UInt16) (dsn user password : Text) : Prop :=
  ∃ memory, connectStrIn driver (loaderString dsn user password) = some memory ∧
    Reads (sqlString memory) (expected driver dsn user password)

def optionsLength (driver : List UInt16) : ℕ := if isPostgres driver then 43 else 0

def Room (driver : List UInt16) (dsn user password : Text) : Prop :=
  dsn.length + optionsLength driver + user.length + 16 ≤ 510 ∧
    dsn.length + optionsLength driver + user.length + password.length + 15 ≤ 510

def optionsText (driver : List UInt16) : Text := if isPostgres driver then postgresOptions else []

theorem optionsText_length (driver : List UInt16) : (optionsText driver).length = optionsLength driver := by
  unfold optionsText optionsLength
  split_ifs
  · rfl
  · rfl

def connectionText (driver : List UInt16) (dsn user password : Text) : Text :=
  "DSN=".toList ++ dsn ++ optionsText driver ++ ";UID=".toList ++ user ++ ";PWD=".toList ++ password

theorem splitDsn_loaderString (hdsn : ';' ∉ dsn) (huser : ';' ∉ user) :
    splitDsn (loaderString dsn user password) = (dsn, some (user, password)) := by
  rw [splitDsn, if_pos (by simp [loaderString])]
  simp only [loaderString, before_append hdsn, after_append hdsn, before_append huser, after_append huser]

theorem storable_options : Storable (optionsText driver) := by
  unfold optionsText
  split_ifs
  · decide
  · decide

theorem copyOptions_iff {cap : ℕ} {text : Text} {m : List UInt16} (htext : Storable text) (hcap : text.length + 2 ≤ cap) :
    (if isPostgres driver then ucToStrCpy (padded cap (units text)) postgresOptions
        else some (padded cap (units text))) = some m ↔
      text.length + optionsLength driver + 2 ≤ cap ∧ m = padded cap (units (text ++ optionsText driver)) := by
  unfold optionsLength optionsText
  by_cases hdriver : isPostgres driver = true
  · rw [if_pos hdriver, if_pos hdriver, if_pos hdriver]
    exact ucToStrCpy_iff htext (by omega) (by decide)
  · rw [if_neg hdriver, if_neg hdriver, if_neg hdriver, List.append_nil, Option.some.injEq]
    constructor
    · rintro rfl
      exact ⟨hcap, rfl⟩
    · rintro ⟨-, rfl⟩
      rfl

theorem connectStrIn_iff {memory : List UInt16} (hdsn : Storable dsn) (huser : Storable user)
    (hpassword : Storable password) (hsplit : ';' ∉ dsn) (hsplit' : ';' ∉ user) :
    connectStrIn driver (loaderString dsn user password) = some memory ↔
      Room driver dsn user password ∧ memory = padded 510 (units (connectionText driver dsn user password)) := by
  have hdsnKey : ("DSN=".toList).length = 4 := rfl
  have huidKey : (";UID=".toList).length = 5 := rfl
  have hpwdKey : (";PWD=".toList).length = 5 := rfl
  have s1 : Storable "DSN=".toList := by decide
  have s2 : Storable ("DSN=".toList ++ dsn) := storable_append.mpr ⟨s1, hdsn⟩
  have s3 : Storable ("DSN=".toList ++ dsn ++ optionsText driver) := storable_append.mpr ⟨s2, storable_options⟩
  have s4 : Storable ("DSN=".toList ++ dsn ++ optionsText driver ++ ";UID=".toList) :=
    storable_append.mpr ⟨s3, by decide⟩
  have s5 : Storable ("DSN=".toList ++ dsn ++ optionsText driver ++ ";UID=".toList ++ user) :=
    storable_append.mpr ⟨s4, huser⟩
  have s6 : Storable ("DSN=".toList ++ dsn ++ optionsText driver ++ ";UID=".toList ++ user ++ ";PWD=".toList) :=
    storable_append.mpr ⟨s5, by decide⟩
  have hoptions := optionsText_length driver
  unfold connectStrIn Room connectionText
  rw [splitDsn_loaderString hsplit hsplit']
  simp only [Option.bind_eq_bind, Option.bind_eq_some_iff, cleared_eq]
  constructor
  · rintro ⟨m0, h0, m1, h1, m2, h2, m3, h3, m4, h4, m5, h5, m6, h6, h7⟩
    obtain ⟨-, rfl⟩ := (ucToStrCpy_iff (by decide) (by decide) s1).mp h1
    obtain ⟨r2, rfl⟩ := (ucToStrCpy_iff s1 (by decide) hdsn).mp h2
    obtain ⟨r3, rfl⟩ := (copyOptions_iff s2 (by simp only [List.length_append]; omega)).mp h3
    simp only [List.length_append] at r2 r3
    obtain ⟨r4, rfl⟩ := (ucToStrCpy_iff s3 (by simp only [List.length_append]; omega) (by decide)).mp h4
    simp only [List.length_append] at r4
    obtain ⟨r5, rfl⟩ := (copyUcToUc_iff s4 (by simp only [List.length_append]; omega) huser).mp h5
    simp only [List.length_append] at r5
    obtain ⟨r6, rfl⟩ := (ucToStrCpy_iff s5 (by simp only [List.length_append]; omega) (by decide)).mp h6
    simp only [List.length_append] at r6
    obtain ⟨r7, rfl⟩ := (copyUcToUc_iff s6 (by simp only [List.length_append]; omega) hpassword).mp h7
    simp only [List.length_append] at r7
    exact ⟨⟨by omega, by omega⟩, rfl⟩
  · rintro ⟨⟨hroom, hroom'⟩, rfl⟩
    refine ⟨_, (ucToStrCpy_iff (by decide) (by decide) hdsn).mpr ⟨by simp only [List.length_nil]; omega, rfl⟩,
      _, (ucToStrCpy_iff (by decide) (by decide) s1).mpr ⟨by decide, rfl⟩,
      _, (ucToStrCpy_iff s1 (by decide) hdsn).mpr ⟨by omega, rfl⟩,
      _, (copyOptions_iff s2 ?_).mpr ⟨?_, rfl⟩,
      _, (ucToStrCpy_iff s3 ?_ (by decide)).mpr ⟨?_, rfl⟩,
      _, (copyUcToUc_iff s4 ?_ huser).mpr ⟨?_, rfl⟩,
      _, (ucToStrCpy_iff s5 ?_ (by decide)).mpr ⟨?_, rfl⟩,
      (copyUcToUc_iff s6 ?_ hpassword).mpr ⟨?_, rfl⟩⟩
    all_goals
      simp only [List.length_append]
      omega

def credentialsText (user password : Text) : List UInt16 :=
  units "UID".toList ++ unit '=' :: (units user ++ unit ';' :: (units "PWD".toList ++ unit '=' :: units password))

theorem reads_credentials_iff (huser : Storable user) (hpassword : Storable password) (hsplit : ';' ∉ user) :
    Reads (credentialsText user password) [("UID".toList, user), ("PWD".toList, password)] ↔
      user.head? ≠ some '{' ∧ password.head? ≠ some '{' ∧ ';' ∉ password := by
  rw [credentialsText, reads_entry_iff ⟨by decide, by decide, by decide, by decide⟩ huser hsplit,
    reads_last_iff ⟨by decide, by decide, by decide, by decide⟩ hpassword]

theorem units_assembled (a b c d e f g : Text) : units (a ++ b ++ c ++ d ++ e ++ f ++ g) =
    units a ++ (units b ++ (units c ++ (units d ++ (units e ++ (units f ++ units g))))) := by
  simp [units]

theorem connectionText_eq : units (connectionText driver dsn user password) =
    units "DSN".toList ++ unit '=' :: (units dsn ++
      (units (optionsText driver) ++ unit ';' :: credentialsText user password)) := by
  have hdsn : units "DSN=".toList = units "DSN".toList ++ [unit '='] := by decide
  have huid : units ";UID=".toList = unit ';' :: (units "UID".toList ++ [unit '=']) := by decide
  have hpwd : units ";PWD=".toList = unit ';' :: (units "PWD".toList ++ [unit '=']) := by decide
  have htext : units (connectionText driver dsn user password) = _ := units_assembled _ _ _ _ _ _ _
  rw [htext, hdsn, huid, hpwd, credentialsText]
  generalize units "DSN".toList = d
  generalize units "UID".toList = u
  generalize units "PWD".toList = p
  simp

theorem connectionText_plain (h : isPostgres driver = false) : units (connectionText driver dsn user password) =
    units "DSN".toList ++ unit '=' :: (units dsn ++ unit ';' :: credentialsText user password) := by
  rw [connectionText_eq, optionsText, h, if_neg (by simp)]
  rfl

theorem connectionText_postgres (h : isPostgres driver = true) : units (connectionText driver dsn user password) =
    units "DSN".toList ++ unit '=' :: (units dsn ++ unit ';' ::
      (units "UseServerSidePrepare".toList ++ unit '=' :: (units "1".toList ++ unit ';' ::
      (units "ShowSystemTables".toList ++ unit '=' :: (units "1".toList ++ unit ';' ::
      unit ';' :: credentialsText user password))))) := by
  have hoptions : units postgresOptions = unit ';' ::
      (units "UseServerSidePrepare".toList ++ unit '=' :: (units "1".toList ++ unit ';' ::
      (units "ShowSystemTables".toList ++ unit '=' :: (units "1".toList ++ [unit ';'])))) := by decide
  rw [connectionText_eq, optionsText, h, if_pos rfl, hoptions]
  generalize units "UseServerSidePrepare".toList = a
  generalize units "ShowSystemTables".toList = b
  simp

theorem reads_connectionText_iff (hdsn : Storable dsn) (huser : Storable user) (hpassword : Storable password)
    (hsplit : ';' ∉ dsn) (hsplit' : ';' ∉ user) :
    Reads (units (connectionText driver dsn user password)) (expected driver dsn user password) ↔
      dsn.head? ≠ some '{' ∧ (namesPostgres driver = true → isPostgres driver = true) ∧
        user.head? ≠ some '{' ∧ password.head? ≠ some '{' ∧ ';' ∉ password := by
  have hcredentials := reads_credentials_iff huser hpassword hsplit'
  have kdsn : IsKeyword "DSN".toList := ⟨by decide, by decide, by decide, by decide⟩
  cases hdriver : isPostgres driver with
  | false =>
    rw [connectionText_plain hdriver, expected]
    apply (reads_entry_iff kdsn hdsn hsplit).trans
    apply and_congr_right'
    cases hnamed : namesPostgres driver with
    | false =>
      rw [postgresAttributes, hnamed]
      exact hcredentials.trans (by simp)
    | true =>
      -- the options are wanted, and the user follows instead
      apply iff_of_false
      · rw [postgresAttributes, hnamed]
        intro h
        have kuid : IsKeyword "UID".toList := ⟨by decide, by decide, by decide, by decide⟩
        obtain ⟨-, -, -, -, hkey⟩ := Reads.first_value kuid h
        exact absurd hkey (by decide)
      · simp
  | true =>
    have hnamed := namesPostgres_of_isPostgres hdriver
    have kprepare : IsKeyword "UseServerSidePrepare".toList := ⟨by decide, by decide, by decide, by decide⟩
    have ktables : IsKeyword "ShowSystemTables".toList := ⟨by decide, by decide, by decide, by decide⟩
    have hone : ("1".toList).head? ≠ some '{' := by decide
    rw [connectionText_postgres hdriver, expected, postgresAttributes, hnamed]
    apply (reads_entry_iff kdsn hdsn hsplit).trans
    apply and_congr_right'
    refine (reads_entry_iff kprepare (by decide) (by decide)).trans ?_
    refine (and_iff_right hone).trans ?_
    refine (reads_entry_iff ktables (by decide) (by decide)).trans ?_
    refine (and_iff_right hone).trans ?_
    exact (reads_separator_iff.trans hcredentials).trans (by simp)

theorem storable_connectionText (driver : List UInt16) (hdsn : Storable dsn) (huser : Storable user) (hpassword : Storable password) :
    Storable (connectionText driver dsn user password) := by
  unfold connectionText
  simp only [storable_append]
  exact ⟨⟨⟨⟨⟨⟨by decide, hdsn⟩, storable_options⟩, by decide⟩, huser⟩, by decide⟩, hpassword⟩

theorem CredentialsReach.values (h : CredentialsReach driver dsn user password) (hdsn : ';' ∉ dsn) (huser : ';' ∉ user) :
    (∀ value ∈ [dsn, user, password], Storable value ∧ value.head? ≠ some '{') ∧ ';' ∉ password ∧
      (namesPostgres driver = true → isPostgres driver = true) ∧ Room driver dsn user password := by
  obtain ⟨memory, hmemory, hreads⟩ := h
  have hstorable := hreads.storable (not_mem_before 0 memory)
  have sdsn : Storable dsn := hstorable _ List.mem_cons_self
  have suser : Storable user := hstorable ("UID".toList, user) (by simp [expected])
  have spassword : Storable password := hstorable ("PWD".toList, password) (by simp [expected])
  obtain ⟨hroom, rfl⟩ := (connectStrIn_iff sdsn suser spassword hdsn huser).mp hmemory
  have htext := storable_connectionText driver sdsn suser spassword
  rw [padded, sqlString_padded (zero_not_mem_units htext)] at hreads
  obtain ⟨hd, hpostgres, hu, hp, hsemicolon⟩ := (reads_connectionText_iff sdsn suser spassword hdsn huser).mp hreads
  exact ⟨by simp [sdsn, suser, spassword, hd, hu, hp], hsemicolon, hpostgres, hroom⟩

theorem credentials_reach_iff (driver : List UInt16) (dsn user password : Text) (hdsn : ';' ∉ dsn) (huser : ';' ∉ user) :
    CredentialsReach driver dsn user password ↔
      (∀ value ∈ [dsn, user, password], Storable value ∧ value.head? ≠ some '{') ∧ ';' ∉ password ∧
        (namesPostgres driver = true → isPostgres driver = true) ∧ Room driver dsn user password := by
  constructor
  · intro h
    exact h.values hdsn huser
  · rintro ⟨hvalues, hsemicolon, hpostgres, hroom⟩
    simp only [List.forall_mem_cons, List.not_mem_nil, false_imp_iff, implies_true, and_true] at hvalues
    obtain ⟨⟨sdsn, hd⟩, ⟨suser, hu⟩, spassword, hp⟩ := hvalues
    refine ⟨_, (connectStrIn_iff sdsn suser spassword hdsn huser).mpr ⟨hroom, rfl⟩, ?_⟩
    rw [padded, sqlString_padded (zero_not_mem_units (storable_connectionText driver sdsn suser spassword))]
    exact (reads_connectionText_iff sdsn suser spassword hdsn huser).mpr ⟨hd, hpostgres, hu, hp, hsemicolon⟩

theorem password_with_equals_reaches :
    CredentialsReach (units "PostgreSQL Unicode".toList) "shop".toList "sa".toList "a=b".toList :=
  (credentials_reach_iff (units "PostgreSQL Unicode".toList) "shop".toList "sa".toList "a=b".toList (by decide)
    (by decide)).mpr ⟨by decide, by decide, fun _ => by decide, by decide, by decide⟩

theorem password_with_semicolon_is_cut :
    ¬ CredentialsReach (units "FreeTDS".toList) "shop".toList "sa".toList "a;b".toList := by
  intro h
  exact absurd (h.values (by decide) (by decide)).2.1 (by decide)

end Credentials

end DbHandler.Connections.ODBC
