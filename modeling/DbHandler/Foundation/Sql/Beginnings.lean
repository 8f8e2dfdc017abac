import DbHandler.Foundation.Sql.Quotes

namespace Foundation.Sql

section Done

/-! The tokens that are done lie untouched below those that a scan adds. -/

theorem start_done (done : List Token) (c : Char) : start done c = ⟨(start [] c).done ++ done, (start [] c).mode⟩ := by
  simp only [start]
  split_ifs <;> rfl

theorem start_over (t : Token) (done : List Token) (c : Char) :
    start (t :: done) c = ⟨(start [t] c).done ++ done, (start [t] c).mode⟩ := by
  rw [start_done, start_done [t], List.append_assoc]
  rfl

theorem scanStep_done (done : List Token) (mode : Mode) (c : Char) :
    scanStep ⟨done, mode⟩ c = ⟨(scanStep ⟨[], mode⟩ c).done ++ done, (scanStep ⟨[], mode⟩ c).mode⟩ := by
  cases mode with
  | between => exact start_done done c
  | word acc =>
    simp only [scanStep]
    split_ifs
    · exact start_over _ done c
    · rfl
  | quoted quote acc =>
    simp only [scanStep]
    split_ifs <;> rfl
  | closed quote acc =>
    simp only [scanStep]
    split_ifs
    · rfl
    · exact start_over _ done c

theorem scan_done (done : List Token) (mode : Mode) (text : List Char) :
    scan ⟨done, mode⟩ text = ⟨(scan ⟨[], mode⟩ text).done ++ done, (scan ⟨[], mode⟩ text).mode⟩ := by
  induction text generalizing done mode with
  | nil => rfl
  | cons c text ih =>
    rw [scan_cons, scan_cons, scanStep_done done mode c, ih, ih (scanStep ⟨[], mode⟩ c).done, List.append_assoc]

theorem finish_done (done : List Token) (mode : Mode) :
    Scan.finish ⟨done, mode⟩ = (Scan.finish ⟨[], mode⟩).map (done.reverse ++ ·) := by
  cases mode <;> simp [Scan.finish]

end Done

section Beginning

/-- What reads clean can be taken off a text, and its tokens off those of the text. -/
theorem ReadsClean.tokens_append {a : List Char} {as : List Token} (ha : ReadsClean a as) (b : List Char) :
    tokens (a ++ b) = (tokens b).map (as ++ ·) := by
  rw [tokens, tokens, scan_append, ha [], scan_done, finish_done]
  cases hs : scan ⟨[], .between⟩ b with
  | mk done mode =>
    rw [finish_done done, Option.map_map]
    simp only [List.append_nil, List.reverse_append, List.reverse_reverse]
    refine congrArg (fun f => Option.map f _) (funext fun ts => ?_)
    exact List.append_assoc _ _ _

/-- A text that has tokens has the same ones with a blank behind it. -/
theorem readsClean_of_tokens {text : List Char} {toks : List Token} (h : tokens text = some toks) :
    ReadsClean (text ++ [' ']) toks := by
  intro done
  have hquotes := (scan_quotes (s := ⟨[], .between⟩) trivial text).2
  rw [tokens] at h
  rw [scan_append, scan_done done]
  cases hs : scan ⟨[], .between⟩ text with
  | mk inner mode =>
    rw [hs] at h hquotes
    cases mode with
    | between =>
      obtain rfl := Option.some.inj h
      rw [List.reverse_reverse]
      rfl
    | word acc =>
      obtain rfl := Option.some.inj h
      rw [List.reverse_reverse]
      rfl
    | quoted quote acc => cases h
    | closed quote acc =>
      obtain rfl := Option.some.inj h
      have hblank : ' ' ≠ quote := by
        rintro rfl
        have hquote : isQuote ' ' = true := hquotes
        exact absurd hquote (by decide)
      rw [List.reverse_reverse]
      exact if_neg hblank

end Beginning

section FirstName

/-- Where a scan may stand that began inside a name: `length` bounds what it has read, `blanks` of the characters
read are blank, and a name that is done has at least `least` blanks. -/
def InName (least length blanks : ℕ) (s : Scan) : Prop :=
  (∃ acc, s = ⟨[], .quoted quotation acc⟩ ∧ acc.length ≤ length ∧ acc.count ' ' = blanks) ∨
    (∃ acc, s = ⟨[], .closed quotation acc⟩ ∧ acc.length < length ∧ acc.count ' ' = blanks) ∨
    ∃ w later, s.done = later ++ [.name w] ∧ w.length < length ∧ least ≤ w.count ' '

variable {least length blanks : ℕ} {s : Scan}

theorem quotation_ne_blank : quotation ≠ ' ' := by decide

/-- The token that is done first stays the first one. -/
theorem head_of_done {t : Token} {later toks : List Token} (hdone : s.done = later ++ [t]) (text : List Char)
    (h : (scan s text).finish = some toks) : toks.head? = some t := by
  obtain ⟨done, mode⟩ := s
  obtain rfl : done = later ++ [t] := hdone
  rw [scan_done, finish_done] at h
  obtain ⟨ts, -, rfl⟩ := Option.map_eq_some_iff.mp h
  simp

theorem InName.step (hleast : least ≤ blanks) (h : InName least length blanks s) (c : Char) :
    InName least (length + 1) (blanks + if c = ' ' then 1 else 0) (scanStep s c) := by
  rcases h with ⟨acc, rfl, hlength, hblanks⟩ | ⟨acc, rfl, hlength, hblanks⟩ | ⟨w, later, hdone, hlength, hw⟩
  · by_cases hc : c = quotation
    · refine Or.inr (Or.inl ⟨acc, if_pos hc, by omega, ?_⟩)
      rw [hblanks, if_neg (hc ▸ quotation_ne_blank), Nat.add_zero]
    · refine Or.inl ⟨c :: acc, if_neg hc, by simpa using hlength, ?_⟩
      rw [List.count_cons, hblanks]
      simp only [beq_iff_eq]
  · by_cases hc : c = quotation
    · refine Or.inl ⟨c :: acc, if_pos hc, by rw [List.length_cons]; omega, ?_⟩
      rw [List.count_cons, hblanks]
      simp only [beq_iff_eq]
    · have hstep : scanStep ⟨[], .closed quotation acc⟩ c = start [.name acc.reverse] c := if_neg hc
      refine Or.inr (Or.inr ⟨acc.reverse, (start [] c).done, ?_, ?_, ?_⟩)
      · rw [hstep, start_done]
      · rw [List.length_reverse]
        omega
      · rw [List.count_reverse, hblanks]
        exact hleast
  · obtain ⟨done, mode⟩ := s
    refine Or.inr (Or.inr ⟨w, (scanStep ⟨[], mode⟩ c).done ++ later, ?_, by omega, hw⟩)
    rw [scanStep_done]
    change _ ++ done = _
    rw [show done = later ++ [.name w] from hdone, List.append_assoc]

theorem InName.scan (hleast : least ≤ blanks) (h : InName least length blanks s) (text : List Char) :
    InName least (length + text.length) (blanks + text.count ' ') (scan s text) := by
  induction text generalizing s length blanks with
  | nil => exact h
  | cons c text ih =>
    rw [scan_cons]
    have hrest := ih (by omega) (h.step hleast c)
    have hlength : length + (c :: text).length = length + 1 + text.length := by
      rw [List.length_cons]
      omega
    have hblanks : blanks + (c :: text).count ' ' = (blanks + if c = ' ' then 1 else 0) + text.count ' ' := by
      rw [List.count_cons]
      simp only [beq_iff_eq]
      omega
    rwa [hlength, hblanks]

theorem InName.finish (h : InName least length blanks s) (hleast : least ≤ blanks) {w : List Char} {toks : List Token}
    (hfinish : s.finish = some (.name w :: toks)) : w.length < length ∧ least ≤ w.count ' ' := by
  rcases h with ⟨acc, rfl, hlength, hblanks⟩ | ⟨acc, rfl, hlength, hblanks⟩ | ⟨v, later, hdone, hlength, hv⟩
  · cases hfinish
  · obtain rfl : acc.reverse = w := by simpa [Scan.finish, quotedToken] using (congrArg List.head? (Option.some.inj hfinish))
    rw [List.length_reverse, List.count_reverse, hblanks]
    exact ⟨hlength, hleast⟩
  · obtain rfl : w = v := by simpa using head_of_done hdone [] hfinish
    exact ⟨hlength, hv⟩

/-- The first name of a text is not the one that the text has up to a blank: where it ends before the blank it is
shorter, and where it goes on it has a blank more. -/
theorem name_ne_of_tokens {name rest w : List Char} {toks : List Token}
    (h : tokens (quotation :: (name ++ ' ' :: rest)) = some (.name w :: toks)) : w ≠ name := by
  have hopen : InName 0 0 0 ⟨[], .quoted quotation []⟩ := Or.inl ⟨[], rfl, Nat.le_refl 0, rfl⟩
  have hname := hopen.scan (Nat.le_refl 0) name
  have htext : tokens (quotation :: (name ++ ' ' :: rest)) =
      (scan (scanStep (scan ⟨[], .quoted quotation []⟩ name) ' ') rest).finish := by
    rw [tokens, scan_cons]
    change (scan ⟨[], .quoted quotation []⟩ (name ++ ' ' :: rest)).finish = _
    rw [scan_append, scan_cons]
  rw [htext] at h
  rw [Nat.zero_add, Nat.zero_add] at hname
  rintro rfl
  rcases hname with ⟨acc, hscan, -, hblanks⟩ | ⟨acc, hscan, hlength, -⟩ | ⟨v, later, hdone, hlength, -⟩
  · have hlonger : InName (w.count ' ' + 1) (acc.length + 1) (w.count ' ' + 1) (scanStep (scan ⟨[], .quoted quotation []⟩ w) ' ') := by
      have hstep : scanStep ⟨[], .quoted quotation acc⟩ ' ' = ⟨[], .quoted quotation (' ' :: acc)⟩ := rfl
      refine Or.inl ⟨' ' :: acc, ?_, by simp, ?_⟩
      · rw [hscan, hstep]
      · rw [List.count_cons_self, hblanks]
    obtain ⟨-, hcount⟩ := (hlonger.scan (Nat.le_refl _) rest).finish (Nat.le_add_right _ _) h
    omega
  · have hstep : scanStep (scan ⟨[], .quoted quotation []⟩ w) ' ' = ⟨[.name acc.reverse], .between⟩ := by
      rw [hscan]
      rfl
    rw [hstep] at h
    obtain rfl : w = acc.reverse := by simpa using head_of_done (List.nil_append _).symm rest h
    rw [List.length_reverse] at hlength
    exact Nat.lt_irrefl _ hlength
  · have hstep : (scanStep (scan ⟨[], .quoted quotation []⟩ w) ' ').done =
        ((scanStep ⟨[], (scan ⟨[], .quoted quotation []⟩ w).mode⟩ ' ').done ++ later) ++ [.name v] := by
      rw [List.append_assoc, ← hdone]
      exact congrArg Scan.done (scanStep_done _ _ _)
    obtain rfl : w = v := by simpa using head_of_done hstep rest h
    exact Nat.lt_irrefl _ hlength

end FirstName

end Foundation.Sql
