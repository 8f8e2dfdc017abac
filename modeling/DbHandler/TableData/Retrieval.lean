import DbHandler.Client
import DbHandler.Foundation.Encoding

namespace DbHandler.TableData

open Foundation.Encoding

/-- A `DataEditFiield`, by the constructor that made it. -/
inductive Entry
  | wide (t : Text)
  | narrow (bytes : Bytes)
  | blob (bytes : Bytes)
  deriving DecidableEq, Repr

def noMoreRows : ℕ := 100

variable {σ ρ : Type}

/-- The loop of `DBTableEdit::Entry` for at most `n` calls: rows are taken until a call returns anything but 0. -/
def retrieve (call : σ → Option (ℕ × List Entry × σ)) : ℕ → σ → Option (List (List Entry) × ℕ)
  | 0, _ => none
  | n + 1, s => (call s).bind fun r =>
    if r.1 = 0 then (retrieve call n r.2.2).map fun rest => (r.2.1 :: rest.1, rest.2) else some ([], r.1)

structure Reads (call : σ → Option (ℕ × List Entry × σ)) (rows : σ → List ρ) (last : σ → Option Text)
    (read : ρ → Option (ℕ × List Entry)) (finish : Option Text → ℕ) : Prop where
  row : ∀ s r rest, rows s = r :: rest →
    ∃ next, rows next = rest ∧ last next = last s ∧ call s = (read r).map fun e => (e.1, e.2, next)
  ends : ∀ s, rows s = [] → ∃ entries next, call s = some (finish (last s), entries, next)
  ends_ne_zero : ∀ l, finish l ≠ 0

def Faithful (call : σ → Option (ℕ × List Entry × σ)) (rows : σ → List ρ) (last : σ → Option Text)
    (represents : ρ → List Entry → Prop) (s : σ) : Prop :=
  ∃ n entries code, retrieve call n s = some (entries, code) ∧ List.Forall₂ represents (rows s) entries ∧
    (code = noMoreRows ↔ last s = none)

variable {call : σ → Option (ℕ × List Entry × σ)} {rows : σ → List ρ} {last : σ → Option Text}
variable {read : ρ → Option (ℕ × List Entry)} {finish : Option Text → ℕ} {represents : ρ → List Entry → Prop}

theorem Reads.retrieve_nil (h : Reads call rows last read finish) {s : σ} (hs : rows s = []) (n : ℕ) :
    retrieve call (n + 1) s = some ([], finish (last s)) := by
  obtain ⟨entries, next, hcall⟩ := h.ends s hs
  simp [retrieve, hcall, h.ends_ne_zero]

theorem Reads.retrieve_of_rows (h : Reads call rows last read finish) (s : σ)
    (hrows : ∀ r ∈ rows s, ∃ e, read r = some (0, e) ∧ represents r e) :
    ∃ entries, retrieve call ((rows s).length + 1) s = some (entries, finish (last s)) ∧
      List.Forall₂ represents (rows s) entries := by
  generalize hlist : rows s = list at hrows
  induction list generalizing s with
  | nil => exact ⟨[], h.retrieve_nil hlist 0, .nil⟩
  | cons r rest ih =>
    obtain ⟨next, hnext, hlast, hcall⟩ := h.row s r rest hlist
    obtain ⟨e, hread, hrepresents⟩ := hrows r (by simp)
    obtain ⟨entries, hretrieve, hall⟩ := ih next hnext fun r' hr' => hrows r' (List.mem_cons_of_mem _ hr')
    refine ⟨e :: entries, ?_, .cons hrepresents hall⟩
    rw [List.length_cons, retrieve]
    simp [hcall, hread, hretrieve, hlast]

theorem Reads.rows_of_retrieve (h : Reads call rows last read finish) {n : ℕ} {s : σ} {entries : List (List Entry)}
    {code : ℕ} (hretrieve : retrieve call n s = some (entries, code)) (hall : List.Forall₂ represents (rows s) entries) :
    (∀ r ∈ rows s, ∃ e, read r = some (0, e) ∧ represents r e) ∧ code = finish (last s) := by
  induction n generalizing s entries with
  | zero => simp [retrieve] at hretrieve
  | succ n ih =>
    cases hlist : rows s with
    | nil =>
      rw [h.retrieve_nil hlist n] at hretrieve
      simp only [Option.some.injEq, Prod.mk.injEq] at hretrieve
      exact ⟨by simp, hretrieve.2.symm⟩
    | cons r rest =>
      obtain ⟨next, hnext, hlast, hcall⟩ := h.row s r rest hlist
      rw [hlist] at hall
      obtain ⟨e, entries', hrepresents, hall', rfl⟩ := List.forall₂_cons_left_iff.mp hall
      rw [retrieve, hcall] at hretrieve
      cases hread : read r with
      | none => simp [hread] at hretrieve
      | some result =>
        obtain ⟨code', e'⟩ := result
        by_cases hcode : code' = 0
        · subst hcode
          simp only [hread, Option.map_some, Option.bind_some, if_true, Option.map_eq_some_iff, Prod.mk.injEq,
            List.cons.injEq, Prod.exists] at hretrieve
          obtain ⟨rest', code'', hrest, ⟨rfl, rfl⟩, rfl⟩ := hretrieve
          obtain ⟨hrows, hfinish⟩ := ih hrest (hnext ▸ hall')
          refine ⟨?_, hlast ▸ hfinish⟩
          rintro r' (_ | ⟨_, hr'⟩)
          · exact ⟨e', hread, hrepresents⟩
          · exact hrows r' (hnext ▸ hr')
        · simp [hread, hcode] at hretrieve

theorem Reads.faithful_iff (h : Reads call rows last read finish) (s : σ) :
    Faithful call rows last represents s ↔
      (∀ r ∈ rows s, ∃ e, read r = some (0, e) ∧ represents r e) ∧ (finish (last s) = noMoreRows ↔ last s = none) := by
  constructor
  · rintro ⟨n, entries, code, hretrieve, hall, hcode⟩
    obtain ⟨hrows, rfl⟩ := h.rows_of_retrieve hretrieve hall
    exact ⟨hrows, hcode⟩
  · rintro ⟨hrows, hcode⟩
    obtain ⟨entries, hretrieve, hall⟩ := h.retrieve_of_rows s hrows
    exact ⟨_, entries, _, hretrieve, hall, hcode⟩

end DbHandler.TableData
