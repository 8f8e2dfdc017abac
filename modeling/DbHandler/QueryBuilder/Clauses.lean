import DbHandler.Foundation.Search
import DbHandler.QueryBuilder.Document

namespace DbHandler.QueryBuilder

open Foundation.Search

/-- `length() - 1`, which is `npos` for an empty text. -/
def lastIndex (query : Text) : Option ℕ := if query = [] then none else some (query.length - 1)

def findGroupBy (query : Text) : Option ℕ := find "GROUP BY".toList query

def findHaving (query : Text) : Option ℕ := find "HAVING".toList query

def findOrderBy (query : Text) : Option ℕ := find "ORDER BY".toList query

/-- `start` and `end` of the clause that the handler replaces; `none` is `npos`. -/
def locate (queryType : ℕ) (query : Text) : Option ℕ × Option ℕ :=
  let start := if queryType = groupByPage then findGroupBy query else findOrderBy query
  let stop := if queryType = groupByPage then (findHaving query).or (findOrderBy query) else lastIndex query
  let (start, stop) :=
    if (start = none ∧ stop = none ∧ queryType = groupByPage) ∨ (start = none ∧ queryType = 4) then
      (lastIndex query, (lastIndex query).map (· + 1))
    else (start, stop)
  let stop := stop.or (lastIndex query)
  if start = none ∧ stop ≠ none ∧ queryType = sortPage then (stop, stop.map (· + 1))
  else if start = none ∧ stop ≠ none ∧ queryType = groupByPage then (stop, some query.length)
  else (start, stop)

/-- `substr( start, end - start )`; an `end` before `start` wraps around, and `npos` as `start` throws. -/
def located (queryType : ℕ) (query : Text) : Option Text :=
  match locate queryType query with
  | (none, _) => none
  | (some start, none) => some (query.drop start)
  | (some start, some stop) =>
    if stop < start then some (query.drop start) else some ((query.drop start).take (stop - start))

/-- The replacement of the located text; one that is emptied is looked for with the character before it. -/
def replaceClause (type : FieldChange) (queryType : ℕ) (str replace query : Text) : Text :=
  match type with
  | .addField => replaceAll str (if str = [';'] then '\n' :: replace ++ [';'] else replace) query
  | .removeField =>
    let str := if replace = [] then (if queryType = groupByPage then '\r' else '\n') :: str else str
    replaceAll str replace query
  | .changeField => replaceAll str replace query

def sortGroupByHandling (type : FieldChange) (fieldName : Text) (queryType : ℕ) (query : Text) (pos : Positions)
    (d : Document) : Option (Document × Text) :=
  (located queryType query).bind fun str =>
    (changeFields type queryType fieldName pos d).map fun changed =>
      (changed.1, replaceClause type queryType str changed.2 query)

end DbHandler.QueryBuilder
