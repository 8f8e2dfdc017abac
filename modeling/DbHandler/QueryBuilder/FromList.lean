import Mathlib.Algebra.GroupWithZero.Nat
import Mathlib.Algebra.BigOperators.Group.List.Basic
import DbHandler.Foundation.Replacement
import DbHandler.Foundation.Sql.Tokens
import DbHandler.Interface

namespace DbHandler.QueryBuilder

open Foundation.Search
open Foundation.Sql (quotation)

def quotedName (name : Text) : Text := quotation :: name ++ [quotation]

def fromSeparator : Text := ",\r     ".toList

/-- The names that `DisplayTables` appends for the displayed tables. -/
def fromList : List Text → Text
  | [] => []
  | [name] => quotedName name
  | name :: next :: rest => quotedName name ++ (fromSeparator ++ fromList (next :: rest))

/-- `Replace( old, "", false )`, with the number of replacements. -/
def replaceOnce (old query : Text) : ℕ × Text :=
  match find old query with
  | some _ => (1, replaceFirst old [] query)
  | none => (0, query)

def removeTableFromQuery (tbl query : Text) : Text :=
  let (ret, query) := replaceOnce (",\n     ".toList ++ quotedName tbl) query
  if ret = 0 then (replaceOnce (",\n     ".toList ++ quotedName tbl) query).2 else query

/-- Where the tables stand behind a newline the pattern removes them. -/
theorem removeTableFromQuery_newline {tbl before after : Text}
    (h : Avoids (",\n     ".toList ++ quotedName tbl) before (",\n     ".toList ++ quotedName tbl ++ after)) :
    removeTableFromQuery tbl (before ++ (",\n     ".toList ++ quotedName tbl ++ after)) = before ++ after := by
  have hfind := find_at h (List.prefix_append _ after)
  rw [removeTableFromQuery, replaceOnce, hfind]
  change replaceFirst _ [] _ = _
  rw [replaceFirst_at h, List.append_nil]

theorem removeTableFromQuery_cases (tbl query : Text) :
    removeTableFromQuery tbl query = query ∨
      ∃ before after, query = before ++ (",\n     ".toList ++ quotedName tbl ++ after) ∧
        removeTableFromQuery tbl query = before ++ after := by
  rcases occurrence (p := ",\n     ".toList ++ quotedName tbl) (by simp) query with hnone | ⟨before, after, rfl, h⟩
  · left
    have hfind := (find_eq_none_iff (by simp)).mpr hnone
    rw [removeTableFromQuery, replaceOnce, hfind]
    change (replaceOnce _ query).2 = query
    rw [replaceOnce, hfind]
  · exact .inr ⟨before, after, rfl, removeTableFromQuery_newline h⟩

section Measures

variable {m : Text → ℕ} (hadd : ∀ a b, m (a ++ b) = m a + m b)

include hadd

/-- Every name but the last has a separator behind it. -/
theorem measure_fromList {tables : List Text} (h : tables ≠ []) :
    m (fromList tables) + m fromSeparator = (tables.map fun name => m (quotedName name) + m fromSeparator).sum := by
  induction tables with
  | nil => exact absurd rfl h
  | cons name tables ih =>
    cases tables with
    | nil => simp [fromList]
    | cons next rest =>
      rw [List.map_cons, List.sum_cons, ← ih (List.cons_ne_nil _ _), fromList, hadd, hadd]
      omega

theorem measure_erase {tables : List Text} {tbl : Text} (h : tbl ∈ tables) (hmore : tables.erase tbl ≠ []) :
    m (fromList tables) = m (fromList (tables.erase tbl)) + m fromSeparator + m (quotedName tbl) := by
  have hall := measure_fromList hadd (List.ne_nil_of_mem h)
  have hrest := measure_fromList hadd hmore
  have hperm := ((List.perm_cons_erase h).map fun name => m (quotedName name) + m fromSeparator).sum_eq
  rw [List.map_cons, List.sum_cons] at hperm
  omega

end Measures

/-- The remover's separator is not the one that the builder writes: no table goes. -/
theorem removeTableFromQuery_ne {tables : List Text} {tbl : Text} (h : tbl ∈ tables) (query rest : Text) :
    removeTableFromQuery tbl (query ++ fromList tables ++ rest) ≠ query ++ fromList (tables.erase tbl) ++ rest := by
  intro hremoved
  have hlength := congrArg List.length hremoved
  have hcount := congrArg (List.count '\r') hremoved
  by_cases hmore : tables.erase tbl = []
  · -- the only table: the pattern is longer than the list
    have hsingle : tables = [tbl] := by
      have hperm := List.perm_cons_erase h
      rw [hmore] at hperm
      exact List.perm_singleton.mp hperm
    subst hsingle
    rw [hmore] at hlength
    rcases removeTableFromQuery_cases tbl (query ++ fromList [tbl] ++ rest) with hsame | ⟨before, after, hsplit, hcut⟩
    · rw [hsame] at hlength
      simp only [fromList, quotedName, List.length_append, List.length_cons, List.length_nil] at hlength
      omega
    · have htotal := congrArg List.length hsplit
      rw [hcut] at hlength
      simp [fromList, quotedName] at hlength htotal
      omega
  · -- otherwise a carriage return stays
    have hreturns := measure_erase (m := List.count '\r') (fun _ _ => List.count_append) h hmore
    have hseparator : fromSeparator.count '\r' = 1 := by decide
    rcases removeTableFromQuery_cases tbl (query ++ fromList tables ++ rest) with hsame | ⟨before, after, hsplit, hcut⟩
    · rw [hsame] at hcount
      simp only [List.count_append] at hcount
      omega
    · have htotal := congrArg (List.count '\r') hsplit
      have hpattern : (",\n     ".toList : Text).count '\r' = 0 := by decide
      rw [hcut] at hcount
      simp only [List.count_append] at hcount htotal
      omega

theorem removeTableFromQuery_ne_second :
    removeTableFromQuery "b".toList ("SELECT *\nFROM ".toList ++ fromList ["a".toList, "b".toList] ++ ";".toList) ≠
      "SELECT *\nFROM ".toList ++ fromList (["a".toList, "b".toList].erase "b".toList) ++ ";".toList :=
  removeTableFromQuery_ne (by decide) _ _

theorem second_table_stays :
    removeTableFromQuery "b".toList ("SELECT *\nFROM ".toList ++ fromList ["a".toList, "b".toList] ++ ";".toList) =
      "SELECT *\nFROM ".toList ++ fromList ["a".toList, "b".toList] ++ ";".toList ∧
    removeTableFromQuery "b".toList ("SELECT *\nFROM ".toList ++ fromList ["a".toList, "b".toList] ++ ";".toList) ≠
      "SELECT *\nFROM ".toList ++ fromList (["a".toList, "b".toList].erase "b".toList) ++ ";".toList := by
  decide +kernel

end DbHandler.QueryBuilder
