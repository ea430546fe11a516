import StyleShield.Ignore
import StyleShield.Proofs.Text.Strip

/-! Lines and the patterns they hold. Of a line only what is significant counts, its own text apart, which a
fault names. -/
namespace StyleShield.Glob

variable {line body : Text}

/-- The pattern that a body without a negation mark stands for; `line` is the text that a fault names. -/
def patternOf (line body : Text) : Except Fault Pattern :=
  match shape? body with
  | none => .error (.invalidPattern line)
  | some shape => if shape.isOrdered then .ok ⟨false, shape⟩ else .error .badCharacterRange

theorem patternOf_eq_ok_iff {p : Pattern} :
    patternOf line body = .ok p ↔ ∃ shape, shape? body = some shape ∧ shape.isOrdered = true ∧ p = ⟨false, shape⟩ := by
  unfold patternOf
  cases shape? body with
  | none => simp
  | some shape =>
    cases hordered : shape.isOrdered with
    | false => simp [hordered]
    | true =>
      simp only [hordered, if_true, Except.ok.injEq, Option.some.injEq]
      constructor
      · rintro rfl
        exact ⟨shape, rfl, hordered, rfl⟩
      · rintro ⟨_, rfl, -, rfl⟩
        rfl

@[simp] theorem matchPath_singleton (shape : Shape) (c : Text) :
    matchPath [⟨false, shape⟩] c = shape.fits (localName c) := by simp [matchPath, decides]

theorem ofLine?_of_body (hbody : significant line = body) (hne : body ≠ []) (hcomment : ∀ s, body ≠ '#' :: s)
    (hnegation : ∀ s, body ≠ '!' :: s) : Pattern.ofLine? line = (patternOf line body).map some := by
  unfold Pattern.ofLine? patternOf
  rw [hbody]
  dsimp only
  split
  · exact absurd rfl hne
  · exact absurd rfl (hcomment _)
  · exact absurd rfl (hnegation _)
  · cases shape? body with
    | none => rfl
    | some shape =>
      dsimp only
      split <;> rfl

theorem significant_strip (line : Text) : significant (Text.strip line) = Text.strip line := by
  by_cases h : Text.strip line = []
  · rw [h]
    rfl
  · unfold significant
    split
    · rfl
    · exact (Text.solid_strip h).trimEnd_eq

theorem significant_eq_strip (hstart : ∀ c v, line = c :: v → Text.isBlank c = false)
    (hend : Text.endsWith ['\\', ' '] line = false) : significant line = Text.strip line := by
  rw [significant, if_neg (by simp [hend]), Text.strip_eq_trimEnd hstart]

theorem ofLine?_of_skipped (h : Matcher.isSkipped (significant line) = true) : Pattern.ofLine? line = .ok none := by
  unfold Pattern.ofLine?
  dsimp only
  split
  · rfl
  · rfl
  · rename_i hbody
    simp [hbody, Matcher.isSkipped] at h
  · rename_i hne hcomment _
    unfold Matcher.isSkipped at h
    split at h
    · rename_i hbody
      exact absurd hbody hne
    · rename_i s hbody
      exact absurd hbody (hcomment s)
    · exact absurd h (by decide)

theorem toOption_ofLine?_congr {other : Text} (h : significant line = significant other) :
    (Pattern.ofLine? line).toOption = (Pattern.ofLine? other).toOption := by
  unfold Pattern.ofLine?
  rw [h]
  dsimp only
  split
  · rfl
  · rfl
  · split
    · rfl
    · rfl
  · split
    · rfl
    · rfl

theorem patternsOf_singleton (line : Text) : patternsOf [line] = (Pattern.ofLine? line).map Option.toList := by
  rw [patternsOf]
  cases Pattern.ofLine? line with
  | error e => rfl
  | ok p => cases p <;> rfl

end StyleShield.Glob
