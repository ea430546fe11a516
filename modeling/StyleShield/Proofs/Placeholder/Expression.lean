import StyleShield.Proofs.Placeholder
import StyleShield.Proofs.Text.Expression

/-! Placeholder rules as a regular expression, and where its matches can stand. The expression can give blanks from
one of its runs to the next, so it can match in several ways; all of them end where the rule that is read there ends
(`mem_ends_expression_iff`). Of two rules in a text the one that begins first ends before the other one begins
(`exists_between`), so two matches are the same or share no character. -/
namespace StyleShield.Placeholder

open Expression (Spot)

def indexGroup : Nat := 1

/-- The stem, digits, and the rest of the rule, with blanks between its words and signs and perhaps a semicolon. -/
def expression : Expression :=
  .sequence [.word stem, .group indexGroup (.both (.one Text.isDecimalDigit) (.run Text.isDecimalDigit)),
    .run Text.isBlank, .word ['{'], .run Text.isBlank, .word display, .run Text.isBlank, .word [':'],
    .run Text.isBlank, .word block, .run Text.isBlank, .either (.word [';']) .nothing, .run Text.isBlank,
    .word ['}']]

def endOf (m : Placeholder × Text) : Spot := ⟨m.2, [(indexGroup, m.1.digits)]⟩

variable {s a b r u w v : Text} {p q : Placeholder} {e : Spot}

/-- Where the expression matches, it ends behind the rule that is read there. -/
theorem mem_ends_expression_iff : e ∈ expression.ends (.start s) ↔ ∃ p r, read s = some (p, r) ∧ e = endOf (p, r) := by
  simp only [read_eq_some_iff, expression, Spot.start, Expression.mem_ends_sequence_word,
    Expression.mem_ends_sequence_group_run, Expression.mem_ends_sequence_run, Expression.mem_ends_sequence_optional,
    Expression.ends_sequence_nil, List.mem_singleton]
  constructor
  · rintro ⟨_, rfl, d, _, hn, hd, rfl, g₁, _, h₁, rfl, _, rfl, g₂, _, h₂, rfl, _, rfl, g₃, _, h₃, rfl, _, rfl,
      g₄, _, h₄, rfl, _, rfl, g₅, _, h₅, rfl, hclose⟩
    rcases hclose with ⟨_, rfl, g₆, _, h₆, rfl, r, rfl, rfl⟩ | ⟨g₆, _, h₆, rfl, r, rfl, rfl⟩
    · refine ⟨⟨d, g₁, g₂, g₃, g₄, g₅, some g₆, hn⟩, r, ⟨⟨hd, ?_⟩, ?_⟩, rfl⟩
      · simp only [gaps, List.cons_append, List.nil_append, List.forall_mem_cons, Option.mem_toList]
        refine ⟨h₁, h₂, h₃, h₄, h₅, fun g hg => ?_⟩
        obtain rfl := Option.some.inj hg
        exact h₆
      · simp [written, bodyText, semicolonText]
    -- Without a semicolon two runs are next to each other, however the blanks are shared out.
    · refine ⟨⟨d, g₁, g₂, g₃, g₄, g₅ ++ g₆, none, hn⟩, r, ⟨⟨hd, ?_⟩, ?_⟩, rfl⟩
      · simp only [gaps, List.cons_append, List.nil_append, List.forall_mem_cons, Option.mem_toList]
        exact ⟨h₁, h₂, h₃, h₄, List.forall_mem_append.2 ⟨h₅, h₆⟩, by simp⟩
      · simp [written, bodyText, semicolonText]
  · rintro ⟨⟨d, g₁, g₂, g₃, g₄, g₅, close, hn⟩, r, ⟨⟨hd, hb⟩, rfl⟩, rfl⟩
    simp only [gaps, List.cons_append, List.nil_append, List.forall_mem_cons, Option.mem_toList] at hb
    obtain ⟨h₁, h₂, h₃, h₄, h₅, hclose⟩ := hb
    have hw : written ⟨d, g₁, g₂, g₃, g₄, g₅, close, hn⟩ ++ r = stem ++ (d ++ (g₁ ++ (['{'] ++ (g₂ ++ (display ++
        (g₃ ++ ([':'] ++ (g₄ ++ (block ++ (g₅ ++ (semicolonText close ++ (['}'] ++ r)))))))))))) := by
      simp [written, bodyText]
    refine ⟨_, hw, d, _, hn, hd, rfl, g₁, _, h₁, rfl, _, rfl, g₂, _, h₂, rfl, _, rfl, g₃, _, h₃, rfl, _, rfl,
      g₄, _, h₄, rfl, _, rfl, g₅, _, h₅, rfl, ?_⟩
    cases close with
    | none => exact .inr ⟨[], _, by simp, rfl, r, rfl, rfl⟩
    | some g => exact .inl ⟨_, rfl, g, _, hclose g rfl, rfl, r, rfl, rfl⟩

theorem ends_expression_unique {e' : Spot} (h : e ∈ expression.ends (.start s)) (h' : e' ∈ expression.ends (.start s)) :
    e = e' := by
  obtain ⟨p, r, hread, rfl⟩ := mem_ends_expression_iff.1 h
  obtain ⟨p', r', hread', rfl⟩ := mem_ends_expression_iff.1 h'
  rw [Option.some.inj (hread.symm.trans hread')]

theorem mem_ends_written (hp : p.WellFormed) (r : Text) : endOf (p, r) ∈ expression.ends (.start (p.written ++ r)) :=
  mem_ends_expression_iff.2 ⟨p, r, read_written_append hp r, rfl⟩

/-- The expression matches the whole of a text. -/
def Matches (w : Text) : Prop := ∃ e ∈ expression.ends (.start w), e.rest = []

theorem matches_written (hp : p.WellFormed) : Matches p.written := by
  have h := mem_ends_written hp []
  rw [List.append_nil] at h
  exact ⟨_, h, rfl⟩

theorem matches_iff : Matches w ↔ ∃ p : Placeholder, p.WellFormed ∧ w = p.written := by
  constructor
  · rintro ⟨e, he, hrest⟩
    obtain ⟨p, r, hread, rfl⟩ := mem_ends_expression_iff.1 he
    obtain ⟨hp, rfl⟩ := read_eq_some_iff.1 hread
    obtain rfl : r = [] := hrest
    exact ⟨p, hp, List.append_nil _⟩
  · rintro ⟨p, hp, rfl⟩
    exact matches_written hp

/-- Of two rules in a text the one that begins first ends before the other one begins. -/
theorem exists_between (hp : p.WellFormed) (h : a ++ (p.written ++ r) = b ++ (q.written ++ u))
    (hlt : a.length < b.length) : ∃ x, b = a ++ (p.written ++ x) ∧ r = x ++ (q.written ++ u) := by
  obtain ⟨y, rfl⟩ : a <+: b := List.prefix_of_prefix_length_le ⟨_, h⟩ (List.prefix_append _ _) (Nat.le_of_lt hlt)
  have hy : y ≠ [] := by
    rintro rfl
    simp at hlt
  rw [List.append_assoc, List.append_cancel_left_eq] at h
  rcases List.append_eq_append_iff.1 h with ⟨x, rfl, hr⟩ | ⟨z, hwritten, hz⟩
  · exact ⟨x, rfl, hr⟩
  · by_cases hempty : z = []
    · subst hempty
      exact ⟨[], by simp [hwritten], hz.symm⟩
    -- The second rule would begin inside the first one.
    · have hstem : z ++ r = stem ++ (q.digits ++ q.bodyText ++ u) := by
        rw [← hz, written]
        simp
      exact absurd hstem (not_stem_of_written_eq hp hy hempty hwritten)

theorem eq_of_same_start (hp : p.WellFormed) (hq : q.WellFormed) (h : a ++ (p.written ++ r) = b ++ (q.written ++ u))
    (hlength : a.length = b.length) : a = b ∧ p = q ∧ r = u := by
  obtain ⟨rfl, hrest⟩ := List.append_inj h hlength
  have hread := read_written_append hp r
  rw [hrest, read_written_append hq u] at hread
  obtain ⟨rfl, rfl⟩ := Prod.mk.inj (Option.some.inj hread)
  exact ⟨rfl, rfl, rfl⟩

/-- Two matches in a text are the same or share no character. -/
theorem Matches.eq_or_apart (hw : Matches w) (hv : Matches v) (h : a ++ w ++ r = b ++ v ++ u) :
    (a = b ∧ w = v) ∨ (a ++ w).length ≤ b.length ∨ (b ++ v).length ≤ a.length := by
  obtain ⟨p, hp, rfl⟩ := matches_iff.1 hw
  obtain ⟨q, hq, rfl⟩ := matches_iff.1 hv
  rw [List.append_assoc, List.append_assoc] at h
  rcases Nat.lt_trichotomy a.length b.length with hlt | heq | hgt
  · obtain ⟨x, rfl, -⟩ := exists_between hp h hlt
    refine .inr (.inl ?_)
    simp [← Nat.add_assoc]
  · obtain ⟨rfl, rfl, -⟩ := eq_of_same_start hp hq h heq
    exact .inl ⟨rfl, rfl⟩
  · obtain ⟨x, rfl, -⟩ := exists_between hq h.symm hgt
    refine .inr (.inr ?_)
    simp [← Nat.add_assoc]

theorem Matches.suffix_rest (hw : Matches w) (h : a ++ w = b ++ s) (hlt : b.length < a.length)
    (he : e ∈ expression.ends (.start s)) : w <:+ e.rest := by
  obtain ⟨p, hp, rfl⟩ := matches_iff.1 hw
  obtain ⟨q, r, hread, rfl⟩ := mem_ends_expression_iff.1 he
  obtain ⟨hq, rfl⟩ := read_eq_some_iff.1 hread
  have hback : b ++ (q.written ++ r) = a ++ (p.written ++ []) := by rw [List.append_nil, h]
  obtain ⟨x, -, rfl⟩ := exists_between hq hback hlt
  rw [List.append_nil]
  exact List.suffix_append x p.written

/-! The rules that are put in. -/

theorem endOf_mem_ends_tight (n : Nat) : endOf (ofIndex n, []) ∈ expression.ends (.start (tight n)) := by
  have h := mem_ends_written (wellFormed_ofIndex n) []
  rwa [List.append_nil, written_ofIndex] at h

theorem tight_infix_tight_iff {m n : Nat} : tight m <:+: tight n ↔ m = n := by
  refine ⟨?_, fun h => h ▸ List.infix_rfl⟩
  rintro ⟨a, r, h⟩
  rw [← written_ofIndex, ← written_ofIndex] at h
  have htext : a ++ ((ofIndex m).written ++ r) = [] ++ ((ofIndex n).written ++ []) := by simpa using h
  by_cases ha : a = []
  · obtain ⟨-, hsame, -⟩ := eq_of_same_start (wellFormed_ofIndex m) (wellFormed_ofIndex n) htext (by rw [ha])
    rw [← index_ofIndex m, hsame, index_ofIndex]
  -- The outer rule begins first, so it would end before the inner one.
  · obtain ⟨x, -, hrest⟩ := exists_between (wellFormed_ofIndex n) htext.symm (List.length_pos_iff.2 ha)
    have hempty := (List.append_eq_nil_iff.1 (List.append_eq_nil_iff.1 hrest.symm).2).1
    exact absurd hempty (lexeme.written_ne_nil (ofIndex m))

end StyleShield.Placeholder
