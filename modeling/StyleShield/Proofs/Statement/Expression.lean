import StyleShield.Proofs.Extension
import StyleShield.Proofs.Text.Expression

/-! Import statements and extensions as regular expressions. The expression for statements refers back
to the opening quote and looks ahead to the end of the line, and its runs could be given back
character by character; all the same it has at most one match where it is tried, and that is the
statement that is read there (`ends_expression`). The expression for extensions finds what is
replaced (`replaceFirst_extensionExpression`). -/
namespace StyleShield.Statement

open Expression (Spot)

/-- A newline, perhaps after a carriage return, or any other end of a line. -/
def lineBreakExpression : Expression :=
  .either (.sequence [.either (.one (· == '\r')) .nothing, .one (· == '\n')]) .lineEnd

/-- A semicolon after some inline blanks, or the end of the line ahead. -/
def endingExpression : Expression :=
  .either (.sequence [.run Text.isInlineBlank, .one (· == ';')])
    (.ahead (.sequence [.run Text.isInlineBlank, lineBreakExpression]))

def quoteGroup : Nat := 1
def pathGroup : Nat := 2

/-- The word, a gap, a quote, a path without quotes, the same quote again, and an ending. -/
def expression : Expression :=
  .sequence [.word keyword, .run Text.isBlank, .group quoteGroup (.one isQuote),
    .group pathGroup (.run fun c => !isQuote c), .again quoteGroup, endingExpression]

/-- A dot and some ASCII letters or digits before a quote. -/
def extensionExpression : Expression :=
  .sequence [.one (· == '.'), .one Char.isAlphanum, .run Char.isAlphanum, .ahead (.one isQuote)]

theorem ne_of_isInlineBlank {c : Char} (h : Text.isInlineBlank c = true) : c ≠ ';' ∧ c ≠ '\n' ∧ c ≠ '\r' := by
  refine ⟨?_, ?_, ?_⟩ <;> rintro rfl <;> exact absurd h (by decide)

theorem head?_ends_lineBreakExpression (s : Spot) :
    (lineBreakExpression.ends s).head?.map Spot.groups = if atLineEnd s.rest then some s.groups else none := by
  obtain ⟨rest, groups⟩ := s
  rcases rest with _ | ⟨c, r⟩
  · rfl
  · by_cases hn : c = '\n'
    · subst hn
      rfl
    · by_cases hr : c = '\r'
      · subst hr
        rcases r with _ | ⟨d, r⟩
        · rfl
        · by_cases hd : d = '\n'
          · subst hd
            rfl
          · simp [lineBreakExpression, Expression.sequence, Expression.ends, Spot.isAtLineEnd, Spot.moveTo,
              atLineEnd, hd]
      · simp [lineBreakExpression, Expression.sequence, Expression.ends, Spot.isAtLineEnd, atLineEnd, hn, hr]

/-- Before a line break only all of the inline blanks lead on. -/
theorem ends_lineBreakExpression_of_isInlineBlank {c : Char} (h : Text.isInlineBlank c = true) (s : Spot) (r : Text) :
    lineBreakExpression.ends (s.moveTo (c :: r)) = [] := by
  have hc := ne_of_isInlineBlank h
  simp [lineBreakExpression, Expression.sequence, Expression.ends, Spot.isAtLineEnd, Spot.moveTo, hc.2.1, hc.2.2]

theorem ends_ahead_lineBreakExpression (s : Spot) :
    (Expression.ahead (.sequence [.run Text.isInlineBlank, lineBreakExpression])).ends s =
      if atLineEnd (s.rest.dropWhile Text.isInlineBlank) then [s] else [] := by
  have hrun : (Expression.sequence [.run Text.isInlineBlank, lineBreakExpression]).ends s =
      lineBreakExpression.ends (s.moveTo (s.rest.dropWhile Text.isInlineBlank)) := by
    rw [Expression.ends_sequence_cons, Expression.flatMap_ends_run, Expression.ends_sequence_singleton]
    intro c r hc
    rw [Expression.ends_sequence_singleton]
    exact ends_lineBreakExpression_of_isInlineBlank hc s r
  have hgroups := head?_ends_lineBreakExpression (s.moveTo (s.rest.dropWhile Text.isInlineBlank))
  have hmap : ∀ o : Option Spot, (o.map fun e => (⟨s.rest, e.groups⟩ : Spot)) =
      (o.map Spot.groups).map fun gs => ⟨s.rest, gs⟩ := fun o => by cases o <;> rfl
  rw [Expression.ends, hrun, hmap, hgroups]
  change Option.toList (Option.map _
    (if atLineEnd (s.rest.dropWhile Text.isInlineBlank) then some s.groups else none)) = _
  by_cases hl : atLineEnd (s.rest.dropWhile Text.isInlineBlank) = true
  · simp [hl]
  · simp [hl]

theorem ends_endingExpression (s : Spot) :
    endingExpression.ends s = ((readEnding s.rest).map fun p => s.moveTo p.2).toList := by
  have hsemicolon : (Expression.sequence [.run Text.isInlineBlank, .one (· == ';')]).ends s =
      (Expression.one (· == ';')).ends (s.moveTo (s.rest.dropWhile Text.isInlineBlank)) := by
    rw [Expression.ends_sequence_cons, Expression.flatMap_ends_run, Expression.ends_sequence_singleton]
    intro c r hc
    simp [Spot.moveTo, (ne_of_isInlineBlank hc).1]
  rw [endingExpression, Expression.ends_either, hsemicolon, ends_ahead_lineBreakExpression, readEnding]
  rcases s.rest.dropWhile Text.isInlineBlank with _ | ⟨c, r⟩
  · rfl
  · by_cases hc : c = ';'
    · subst hc
      rfl
    · by_cases hl : atLineEnd (c :: r) = true
      · simp [Spot.moveTo, hc, hl]
      · simp [Spot.moveTo, hc, hl]

def endOf (m : Statement × Text) : Spot := ⟨m.2, [(pathGroup, m.1.path), (quoteGroup, [m.1.quote])]⟩

/-- After the path only the closing quote leads on, and it is the opening one again. -/
theorem ends_closing (q : Char) (p w : Text) :
    (Expression.sequence [.again quoteGroup, endingExpression]).ends ⟨w, [(pathGroup, p), (quoteGroup, [q])]⟩ =
      match w with
      | q' :: r => if q' = q then
          ((readEnding r).map fun m => ⟨m.2, [(pathGroup, p), (quoteGroup, [q])]⟩).toList else []
      | [] => [] := by
  have hgroup : (⟨w, [(pathGroup, p), (quoteGroup, [q])]⟩ : Spot).group? quoteGroup = some [q] := rfl
  rw [Expression.ends_sequence_cons, Expression.ends, hgroup]
  rcases w with _ | ⟨q', r⟩
  · rfl
  · by_cases hq : q' = q
    · subst hq
      have hafter : Text.after? [q'] (q' :: r) = some r := Text.after?_append [q'] r
      simp only [Option.bind_some, hafter, List.flatMap_cons, List.flatMap_nil, List.append_nil,
        Expression.ends_sequence_singleton, ends_endingExpression, if_true]
      rfl
    · have hq' : ¬ q = q' := fun h => hq h.symm
      simp [Text.after?, hq, hq']

theorem ends_quoted (gap v : Text) :
    (Expression.sequence [.group quoteGroup (.one isQuote), .group pathGroup (.run fun c => !isQuote c),
      .again quoteGroup, endingExpression]).ends (.start v) = ((readQuoted gap v).map endOf).toList := by
  rw [Expression.ends_sequence_cons]
  rcases v with _ | ⟨q, w⟩
  · rfl
  · by_cases hq : isQuote q = true
    · have hopening : (Expression.group quoteGroup (.one isQuote)).ends (.start (q :: w)) =
          [⟨w, [(quoteGroup, [q])]⟩] := by
        simp [Expression.ends, Spot.start, Spot.moveTo, Spot.since, hq]
      rw [hopening, List.flatMap_cons, List.flatMap_nil, List.append_nil, Expression.ends_sequence_cons,
        Expression.flatMap_ends_group_run, ends_closing]
      · simp only [readQuoted, hq, if_true]
        rcases w.dropWhile (fun c => !isQuote c) with _ | ⟨q', r⟩
        · rfl
        · by_cases hqq : q' = q
          · simp only [hqq, if_true]
            cases readEnding r with
            | none => rfl
            | some m => rfl
          · simp [hqq]
      · intro c r p hc
        have hne : c ≠ q := by
          rintro rfl
          simp [hq] at hc
        rw [ends_closing]
        simp [hne]
    · have hopening : (Expression.group quoteGroup (.one isQuote)).ends (.start (q :: w)) = [] := by
        simp [Expression.ends, Spot.start, hq]
      rw [hopening]
      simp [readQuoted, hq]

/-- The statement that is read is the only match of its expression. -/
theorem ends_expression (t : Text) : expression.ends (.start t) = ((read t).map endOf).toList := by
  rw [expression, Expression.ends_sequence_cons, Expression.ends_word, read]
  cases hu : Text.after? keyword t with
  | none => simp [Spot.start, hu]
  | some u =>
    simp only [Spot.start, hu, Option.map_some, Option.toList_some, List.flatMap_cons, List.flatMap_nil,
      List.append_nil]
    rw [Expression.ends_sequence_cons, Expression.flatMap_ends_run]
    · exact ends_quoted _ _
    · intro c r hc
      have hq : isQuote c = false := by
        by_contra hn
        have hblank := not_isBlank_of_isQuote (by simpa using hn : isQuote c = true)
        simp [hc] at hblank
      rw [Expression.ends_sequence_cons]
      simp [Expression.ends, Spot.moveTo, hq]

theorem ends_extensionExpression (c : Char) (s : Text) : extensionExpression.ends (.start (c :: s)) =
    if c = '.' ∧ isExtension s = true then [.start (s.dropWhile Char.isAlphanum)] else [] := by
  by_cases hc : c = '.'
  · rw [extensionExpression, Expression.ends_sequence_cons]
    simp only [Spot.start, Expression.ends_one_cons, hc, beq_self_eq_true, if_true, List.flatMap_cons,
      List.flatMap_nil, List.append_nil, true_and]
    rw [Expression.ends_sequence_cons]
    rcases s with _ | ⟨d, s⟩
    · rfl
    · by_cases hd : d.isAlphanum = true
      · simp only [Expression.ends_one_cons, hd, if_true, List.flatMap_cons, List.flatMap_nil, List.append_nil]
        rw [Expression.ends_sequence_cons, Expression.flatMap_ends_run, Expression.ends_sequence_singleton]
        · simp only [isExtension, List.takeWhile_cons, List.dropWhile_cons, hd, if_true]
          change (Expression.ahead (.one isQuote)).ends ⟨s.dropWhile Char.isAlphanum, []⟩ = _
          rcases s.dropWhile Char.isAlphanum with _ | ⟨q, r⟩
          · rfl
          · by_cases hq : isQuote q = true
            · simp [Expression.ends, Spot.moveTo, hq]
            · simp [Expression.ends, hq]
        · intro c r hr
          have hq : isQuote c = false := by
            by_contra hn
            have halnum := not_isAlphanum_of_isQuote (by simpa using hn : isQuote c = true)
            simp [hr] at halnum
          simp [Expression.ends, Spot.moveTo, hq]
      · simp [isExtension, hd]
  · rw [extensionExpression, Expression.ends_sequence_cons]
    simp [Spot.start, hc]

theorem replaceFirst_extensionExpression (ext s : Text) :
    extensionExpression.replaceFirst ext s = replaceExtension ext s := by
  induction s with
  | nil => rfl
  | cons c s ih =>
    rw [Expression.replaceFirst, replaceExtension, ends_extensionExpression]
    by_cases h : c = '.' ∧ isExtension s = true
    · rw [if_pos h, if_pos h]
      rfl
    · rw [if_neg h, if_neg h, ih]

end StyleShield.Statement
