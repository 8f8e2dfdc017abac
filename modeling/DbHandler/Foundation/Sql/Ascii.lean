import DbHandler.Foundation.Encoding
import DbHandler.Foundation.Sql.Statements

namespace Foundation.Sql

open Foundation.Encoding

theorem ascii_number (n : ℤ) : Ascii (toString n).toList := by
  intro c hc
  have hdigits (k : ℕ) : ∀ d ∈ Nat.toDigits 10 k, d.toNat < 128 := by
    intro d hd
    have hdigit : d.isDigit = true := Nat.isDigit_of_mem_toDigits (by omega) (by omega) hd
    simp only [Char.isDigit, Bool.and_eq_true, decide_eq_true_eq] at hdigit
    have hhigh := UInt32.le_iff_toNat_le.mp hdigit.2
    have hnine : ('9'.val : UInt32).toNat = 57 := rfl
    change d.val.toNat < 128
    omega
  rw [Int.toString_eq_repr, Int.repr_eq_if] at hc
  split_ifs at hc
  · rw [Nat.toList_repr] at hc
    exact hdigits _ c hc
  · rw [String.toList_append, Nat.toList_repr, List.mem_append] at hc
    rcases hc with hc | hc
    · obtain rfl : c = '-' := by simpa using hc
      decide
    · exact hdigits _ c hc

theorem ascii_value (v : Value) : Ascii v.render ↔ Ascii v.content := by
  cases v with
  | text t =>
    have hquote : Ascii [apostrophe] := by decide
    have hrender : (Value.text t).render = [apostrophe] ++ t ++ [apostrophe] := rfl
    rw [hrender, ascii_append, ascii_append]
    exact ⟨fun h => h.1.2, fun h => ⟨⟨hquote, h⟩, hquote⟩⟩
  | number n => exact iff_of_true (ascii_number n) (ascii_number n)

/-- A column and its value, behind what separates them from the pair before. -/
def AsciiPair (p : List Char × List Char × Value) : Prop := Ascii p.1 ∧ Ascii p.2.1 ∧ Ascii p.2.2.content

theorem ascii_pairText (column : List Char) (value : Value) : Ascii (pairText column value) ↔ Ascii column ∧ Ascii value.content := by
  have hquote : Ascii [quotation] := by decide
  have hequal : Ascii " = ".toList := by decide
  have hpair : pairText column value = [quotation] ++ column ++ [quotation] ++ " = ".toList ++ value.render := rfl
  rw [hpair]
  simp only [ascii_append, ascii_value, hquote, hequal, true_and, and_true]

theorem ascii_pairsText (first : List Char × Value) (others : List (List Char × List Char × Value)) :
    Ascii (pairsText first others) ↔ (Ascii first.1 ∧ Ascii first.2.content) ∧ ∀ p ∈ others, AsciiPair p := by
  simp only [pairsText, ascii_append, ascii_pairText, ascii_flatMap, AsciiPair]

theorem ascii_quotedName (table : List Char) : Ascii (quotation :: table ++ [quotation]) ↔ Ascii table := by
  have hquote : Ascii [quotation] := by decide
  have hname : quotation :: table ++ [quotation] = [quotation] ++ table ++ [quotation] := rfl
  rw [hname, ascii_append, ascii_append]
  exact ⟨fun h => h.1.2, fun h => ⟨⟨hquote, h⟩, hquote⟩⟩

theorem ascii_updateText (table : List Char) (first : List Char × Value) (others : List (List Char × List Char × Value))
    (firstKey : List Char × Value) (otherKeys : List (List Char × List Char × Value)) :
    Ascii (updateText table first others firstKey otherKeys) ↔ Ascii table ∧
      Ascii (pairsText first others) ∧ Ascii (pairsText firstKey otherKeys) := by
  have hupdate : Ascii "UPDATE ".toList := by decide
  have hset : Ascii " SET ".toList := by decide
  have hwhere : Ascii " WHERE ".toList := by decide
  have hend : Ascii ";".toList := by decide
  unfold updateText
  rw [ascii_append, ascii_append, ascii_append, ascii_append, ascii_append, ascii_append, ascii_quotedName]
  constructor
  · rintro ⟨⟨⟨⟨⟨⟨-, htable⟩, -⟩, hpairs⟩, -⟩, hkeys⟩, -⟩
    exact ⟨htable, hpairs, hkeys⟩
  · rintro ⟨htable, hpairs, hkeys⟩
    exact ⟨⟨⟨⟨⟨⟨hupdate, htable⟩, hset⟩, hpairs⟩, hwhere⟩, hkeys⟩, hend⟩

theorem ascii_insertText (table : List Char) (first : Value) (others : List Value) :
    Ascii (insertText table first others) ↔ Ascii table ∧ Ascii first.content ∧ ∀ v ∈ others, Ascii v.content := by
  have hinsert : Ascii "INSERT INTO ".toList := by decide
  have hvalues : Ascii " VALUES( ".toList := by decide
  have hcomma : Ascii ", ".toList := by decide
  have hend : Ascii " );".toList := by decide
  have hothers : Ascii (others.flatMap fun v => ", ".toList ++ v.render) ↔ ∀ v ∈ others, Ascii v.content := by
    rw [ascii_flatMap]
    refine forall₂_congr fun v _ => ?_
    rw [ascii_append, ascii_value]
    exact ⟨fun h => h.2, fun h => ⟨hcomma, h⟩⟩
  unfold insertText valuesText
  rw [ascii_append, ascii_append, ascii_append, ascii_append, ascii_quotedName, ascii_append, ascii_value, hothers]
  constructor
  · rintro ⟨⟨⟨⟨-, htable⟩, -⟩, hvalue⟩, -⟩
    exact ⟨htable, hvalue⟩
  · rintro ⟨htable, hvalue⟩
    exact ⟨⟨⟨⟨hinsert, htable⟩, hvalues⟩, hvalue⟩, hend⟩

end Foundation.Sql
