import Mathlib.Data.List.Forall2
import StyleShield.Proofs.Ignore
import StyleShield.Proofs.Run

/-! Why globs are refused. Only globs that count are compiled, in order: the first one that is negated, or that is
no pattern, is the fault (`compileAll_eq_error_iff`), and without one each gives its matcher
(`compileAll_eq_ok_iff`). -/
namespace StyleShield

namespace Glob

/-- A line that is no pattern. -/
inductive IsPatternFault : Fault → Prop
  | invalid (line : Text) : IsPatternFault (.invalidPattern line)
  | badRange : IsPatternFault .badCharacterRange

theorem ofLine?_failsOnly (line : Text) : FailsOnly IsPatternFault (Pattern.ofLine? line) := by
  unfold Pattern.ofLine?
  dsimp only
  split
  · exact .ok _
  · exact .ok _
  all_goals
    split
    · exact .error (.invalid line)
    · exact .ite (.ok _) (.error .badRange)

theorem patternsOf_eq_error_iff {lines : List Text} {f : Fault} :
    patternsOf lines = .error f ↔ FailsFirst Pattern.ofLine? lines f := by
  refine eq_error_iff_failsFirst (fun e => by simp [patternsOf]) fun line lines e => ?_
  rw [patternsOf]
  cases Pattern.ofLine? line with
  | error e' => simp [bind, Except.bind]
  | ok p => cases patternsOf lines <;> simp [bind, Except.bind, pure, Except.pure]

end Glob

namespace Matcher

variable {glob : Text} {globs : List Text} {f : Fault}

/-- The globs of a list that stand for matchers, without the blanks around them. -/
def counted (globs : List Text) : List Text := (globs.map Text.strip).filter fun g => !isSkipped g

/-- Why a glob is refused: it is negated, or its line is no pattern. -/
inductive Refuses : (glob : Text) → Fault → Prop
  | negated (rest : Text) : Refuses ('!' :: rest) (.settings (.negatedPattern ('!' :: rest)))
  | pattern {glob : Text} {f : Fault} (hn : glob.head? ≠ some '!') (h : Glob.Pattern.ofLine? glob = .error f) :
      Refuses glob f

theorem compile_eq_error_iff : compile glob = .error f ↔ Refuses glob f := by
  unfold compile
  split
  · rename_i rest
    constructor
    · intro h
      obtain rfl := Except.error.inj h
      exact .negated rest
    · intro h
      cases h with
      | negated rest => rfl
      | pattern hn h => simp at hn
  · rename_i hglob
    have hn : glob.head? ≠ some '!' := fun h => by
      obtain ⟨rest, rfl⟩ := List.head?_eq_some_iff.1 h
      exact hglob rest rfl
    have hpattern : (Glob.patternsOf [glob]).map (Matcher.mk glob) = .error f ↔ Glob.Pattern.ofLine? glob = .error f := by
      cases h : Glob.Pattern.ofLine? glob <;>
        simp [Glob.patternsOf, h, bind, Except.bind, pure, Except.pure, Except.map]
    rw [hpattern]
    constructor
    · exact .pattern hn
    · intro h
      cases h with
      | negated rest => simp at hn
      | pattern _ h => exact h

theorem counted_cons (g : Text) (globs : List Text) : counted (g :: globs) =
    if isSkipped (Text.strip g) then counted globs else Text.strip g :: counted globs := by
  by_cases hg : isSkipped (Text.strip g) = true <;> simp [counted, hg]

theorem compileAll_eq_error_iff : compileAll globs = .error f ↔ FailsFirst compile (counted globs) f := by
  induction globs with
  | nil => exact iff_of_false (by simp [compileAll]) not_failsFirst_nil
  | cons g globs ih =>
    rw [compileAll_cons, counted_cons]
    by_cases hg : isSkipped (Text.strip g) = true
    · rw [if_pos hg, if_pos hg, ih]
    · rw [if_neg hg, if_neg hg, failsFirst_cons, ← ih]
      cases compile (Text.strip g) with
      | error e => simp [Except.bind]
      | ok m => cases compileAll globs <;> simp [Except.bind, Except.map]

theorem compileAll_eq_ok_iff {ms : List Matcher} :
    compileAll globs = .ok ms ↔ List.Forall₂ (fun g m => compile g = .ok m) (counted globs) ms := by
  induction globs generalizing ms with
  | nil => simp [compileAll, counted, eq_comm]
  | cons g globs ih =>
    rw [compileAll_cons, counted_cons]
    by_cases hg : isSkipped (Text.strip g) = true
    · rw [if_pos hg, if_pos hg, ih]
    · rw [if_neg hg, if_neg hg, List.forall₂_cons_left_iff]
      simp only [← ih]
      cases compile (Text.strip g) with
      | error e => simp [Except.bind]
      | ok m => cases compileAll globs <;> simp [Except.bind, Except.map, eq_comm]

theorem Refuses.isFault (h : Refuses glob f) : (∃ c, f = .settings c) ∨ Glob.IsPatternFault f := by
  cases h with
  | negated rest => exact .inl ⟨_, rfl⟩
  | pattern hn h => exact .inr (Glob.ofLine?_failsOnly glob _ h)

end Matcher

end StyleShield
