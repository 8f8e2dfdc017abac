import Mathlib.Data.Multiset.MapFold
import DbHandler.AlterTable.Drivers

namespace DbHandler.AlterTable

open Foundation

variable {δ : Type}

structure ForeignKeyCatalog (dbms : Dbms δ) where
  constraints : δ → Multiset Constraint
  names_nodup : ∀ d, ((constraints d).map (·.name)).Nodup
  add : ∀ {d d' : δ} {statement : Statement} {c : Constraint}, dbms.exec d statement = .ok d' →
    statement.effect = .addForeignKey c → c.columns ≠ [] ∧ constraints d' = c ::ₘ constraints d
  drop : ∀ {d d' : δ} {statement : Statement} {name : Text}, dbms.exec d statement = .ok d' →
    statement.effect = .dropForeignKey name → ∃ c, c.name = name ∧ constraints d = c ::ₘ constraints d'
  allocHandle : ∀ {d d' : δ}, dbms.allocHandle d = .ok d' → constraints d' = constraints d
  freeHandle : ∀ {d d' : δ}, dbms.freeHandle d = .ok d' → constraints d' = constraints d

structure Represents (fields : List FKField) (c : Constraint) : Prop where
  nonempty : fields ≠ []
  named : ∀ fk ∈ fields, fk.fkName = c.name ∧ fk.refTable = c.refTable
  columns : fields.map (·.columns) = c.columns

def MapAgrees (m : ForeignKeyMap) (constraints : Multiset Constraint) : Prop :=
  Multiset.Rel Represents (m.values : Multiset (List FKField)) constraints

def OthersKept (keyName : Text) (m n : ForeignKeyMap) : Prop :=
  ∀ key fields, (∀ fk ∈ fields, fk.fkName ≠ keyName) →
    ((key, fields) ∈ n.entries ↔ (key, fields) ∈ m.entries)

theorem pushForeignKeyFields_eq (key : ℕ) (m : ForeignKeyMap) {fields : List FKField} (h : fields ≠ []) :
    pushForeignKeyFields key fields m = m.upsert key fun old => old.getD [] ++ fields := by
  induction fields generalizing m with
  | nil => exact absurd rfl h
  | cons fk fields ih =>
    cases fields with
    | nil => rfl
    | cons fk' fields =>
      change pushForeignKeyFields key (fk' :: fields) _ = _
      rw [ih _ (List.cons_ne_nil _ _), OrderedMap.upsert_upsert]
      simp

theorem mapAgrees_of_perm {n : ForeignKeyMap} {constraints : Multiset Constraint}
    {es : List (ℕ × List FKField)} (h : n.entries.Perm es)
    (hrel : Multiset.Rel Represents (es.map Prod.snd : Multiset (List FKField)) constraints) :
    MapAgrees n constraints := by
  have hvalues : (n.values : Multiset (List FKField)) = (es.map Prod.snd : List (List FKField)) :=
    Multiset.coe_eq_coe.mpr (h.map Prod.snd)
  rwa [MapAgrees, hvalues]

theorem mapAgrees_upsert_fresh {m : ForeignKeyMap} {constraints : Multiset Constraint} {key : ℕ}
    {fields : List FKField} {c : Constraint} (h : MapAgrees m constraints) (hkey : key ∉ m.keys)
    (hfields : Represents fields c) :
    MapAgrees (m.upsert key fun old => old.getD [] ++ fields) (c ::ₘ constraints) := by
  refine mapAgrees_of_perm (OrderedMap.upsert_entries_perm hkey) ?_
  simpa [OrderedMap.values] using Multiset.Rel.cons hfields h

theorem othersKept_upsert_fresh {m : ForeignKeyMap} {key : ℕ} {fields : List FKField} {keyName : Text}
    (hkey : key ∉ m.keys) (hfields : ∃ fk ∈ fields, fk.fkName = keyName) :
    OthersKept keyName m (m.upsert key fun old => old.getD [] ++ fields) := by
  intro k v hv
  rw [(OrderedMap.upsert_entries_perm hkey).mem_iff, List.mem_cons]
  refine or_iff_right fun heq => ?_
  obtain ⟨-, rfl⟩ : k = key ∧ v = fields := by simpa using heq
  obtain ⟨fk, hfk, hname⟩ := hfields
  exact hv fk hfk hname

theorem mapAgrees_split {m : ForeignKeyMap} {constraints : Multiset Constraint} {key : ℕ}
    {fields : List FKField} {before after : List (ℕ × List FKField)} (h : MapAgrees m constraints)
    (hnodup : (constraints.map (·.name)).Nodup) (hentries : m.entries = before ++ (key, fields) :: after) :
    ∃ c others, constraints = c ::ₘ others ∧ Represents fields c ∧
      Multiset.Rel Represents ((before ++ after).map Prod.snd : List (List FKField)) others ∧
      ∀ e ∈ before ++ after, ∀ fk ∈ e.2, fk.fkName ≠ c.name := by
  have hvalues : (m.values : Multiset (List FKField)) =
      fields ::ₘ ((before ++ after).map Prod.snd : List (List FKField)) := by
    rw [OrderedMap.values, hentries, Multiset.cons_coe, Multiset.coe_eq_coe]
    simp
  rw [MapAgrees, hvalues, Multiset.rel_cons_left] at h
  obtain ⟨c, others, hc, hrel, rfl⟩ := h
  refine ⟨c, others, rfl, hc, hrel, fun e he fk hfk hname => ?_⟩
  obtain ⟨c', hc', hrep⟩ := Multiset.exists_mem_of_rel_of_mem hrel
    (Multiset.mem_coe.mpr (List.mem_map_of_mem he))
  rw [Multiset.map_cons, Multiset.nodup_cons] at hnodup
  refine hnodup.1 (Multiset.mem_map.mpr ⟨c', hc', ?_⟩)
  rw [← (hrep.named fk hfk).1, hname]

theorem removeForeignKeyField_entries {m : ForeignKeyMap} {keyName : Text} {key : ℕ} {fk : FKField}
    {fields : List FKField} {before after : List (ℕ × List FKField)}
    (hentries : m.entries = before ++ (key, fk :: fields) :: after) (hname : fk.fkName = keyName)
    (hbefore : ∀ e ∈ before, ∀ fk ∈ e.2, fk.fkName ≠ keyName) :
    (removeForeignKeyField keyName m).entries = before ++ (key, fields) :: after := by
  refine OrderedMap.updateFirst_entries_of_append hentries (fun e he => ?_) ?_
  · have hnone : (e.2.any fun fk => decide (fk.fkName = keyName)) = false := by
      simpa using hbefore e he
    simp [hnone]
  · simp [hname]

end DbHandler.AlterTable
