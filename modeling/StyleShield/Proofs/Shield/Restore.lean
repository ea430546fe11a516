import StyleShield.Proofs.Placeholder
import StyleShield.Proofs.Run
import StyleShield.Shield

/-! What restoring does. Every rule of the compiled text is answered on its own, in order:
by its statement, or by itself with a warning. Gaps without rules stay as they are
(`restore_weave`), wherever a compiler has moved the rules and however it has spelled them. -/
namespace StyleShield.Shield

open Lexeme

variable {imports : List Text} {ext : Text}

/-- What takes the place of a rule: its statement, with the extension in force, or the rule
itself if there is no such statement. -/
def answer (imports : List Text) (ext : Text) (p : Placeholder) : Text :=
  if h : p.index < imports.length then
    if ext = [] then imports[p.index] else Statement.replaceExtension ext imports[p.index]
  else p.written

/-- One warning for each rule without a statement. -/
def warnings (count : Nat) (ps : List Placeholder) : List Event :=
  (ps.filter fun p => count ≤ p.index).map fun p =>
    .logged ⟨.warning, .importShield, unresolved p count⟩

theorem warnings_cons (count : Nat) (p : Placeholder) (ps : List Placeholder) :
    warnings count (p :: ps) = warnings count [p] ++ warnings count ps := by
  by_cases h : count ≤ p.index <;> simp [warnings, h]

theorem answer_of_lt {p : Placeholder} (h : p.index < imports.length) :
    answer imports [] p = imports[p.index] := by simp [answer, h]

theorem answer_of_le {p : Placeholder} (h : imports.length ≤ p.index) :
    answer imports ext p = p.written := by simp [answer, Nat.not_lt.2 h]

theorem resolve_eq {p : Placeholder} (h : p.digits.length ≤ Text.digitLimit) :
    resolve imports ext p = ⟨warnings imports.length [p], .ok (answer imports ext p)⟩ := by
  rw [resolve, if_neg (by omega)]
  by_cases hi : p.index < imports.length
  · simp [warnings, answer, hi]
  · have hn : imports.length ≤ p.index := by omega
    simp [warnings, answer, hi, hn, Run.log]

theorem resolve_of_digitLimit_lt {p : Placeholder} (h : Text.digitLimit < p.digits.length) :
    resolve imports ext p = Run.fail (.digitLimit p.digits.length) := by
  rw [resolve, if_pos h]

theorem restorePieces_eq {ps : List (Piece Placeholder)}
    (h : ∀ p ∈ tokensOf ps, p.digits.length ≤ Text.digitLimit) :
    restorePieces imports ext ps =
      ⟨warnings imports.length (tokensOf ps), .ok (fill (answer imports ext) ps)⟩ := by
  induction ps with
  | nil => rfl
  | cons q ps ih =>
    cases q with
    | char c =>
      rw [restorePieces, ih (by simpa using h), Run.map_eq]
      simp [Except.map]
    | token p =>
      simp only [tokensOf_token, List.forall_mem_cons] at h
      rw [restorePieces, resolve_eq h.1, Run.bind_ok rfl, ih h.2, Run.bind_ok rfl, tokensOf_token,
        warnings_cons _ p (tokensOf ps)]
      simp [warnings]

theorem restorePieces_result_ok_iff {ps : List (Piece Placeholder)} :
    (∃ s, (restorePieces imports ext ps).result = .ok s) ↔
      ∀ p ∈ tokensOf ps, p.digits.length ≤ Text.digitLimit := by
  refine ⟨fun hs => ?_, fun h => ⟨_, congrArg Run.result (restorePieces_eq h)⟩⟩
  obtain ⟨s, hs⟩ := hs
  induction ps generalizing s with
  | nil => simp
  | cons q ps ih =>
    cases q with
    | char c =>
      rw [restorePieces, map_eq_pure_bind, Run.bind_result_eq_ok_iff] at hs
      obtain ⟨u, hu, -⟩ := hs
      exact ih u hu
    | token p =>
      rw [restorePieces, Run.bind_result_eq_ok_iff] at hs
      obtain ⟨a, ha, hs⟩ := hs
      obtain ⟨u, hu, -⟩ := Run.bind_result_eq_ok_iff.1 hs
      have hp : p.digits.length ≤ Text.digitLimit := by
        by_contra hn
        rw [resolve_of_digitLimit_lt (by omega)] at ha
        simp [Run.fail] at ha
      simpa [hp] using ih u hu

theorem quiet_restore (content : Text) (imports : List Text) (ext : Text) :
    (restore content imports ext).Quiet := by
  have hresolve (p : Placeholder) : (resolve imports ext p).Quiet := by
    unfold resolve
    split
    · exact Run.quiet_fail _
    · split
      · exact Run.quiet_pure _
      · exact (Run.quiet_log _ _ _).bind fun _ => Run.quiet_pure _
  rw [restore]
  induction Placeholder.lexeme.pieces content with
  | nil => exact Run.quiet_pure _
  | cons q ps ih =>
    cases q with
    | char c => exact ih.map _
    | token p => exact (hresolve p).bind fun _ => ih.bind fun _ => Run.quiet_pure _

theorem restore_eq {s : Text} (h : ∀ p ∈ Placeholder.lexeme.tokens s, p.digits.length ≤ Text.digitLimit) :
    restore s imports ext = ⟨warnings imports.length (Placeholder.lexeme.tokens s),
      .ok (fill (answer imports ext) (Placeholder.lexeme.pieces s))⟩ :=
  restorePieces_eq h

theorem restore_nil {s : Text} (h : ∀ p : Placeholder, p.OccursIn s → p.digits.length ≤ Text.digitLimit) :
    restore s [] ext = ⟨warnings 0 (Placeholder.lexeme.tokens s), .ok s⟩ := by
  have hs : fill (answer [] ext) (Placeholder.lexeme.pieces s) = s :=
    fill_pieces_eq_self _ fun p _ => answer_of_le (Nat.zero_le p.index)
  rw [restore_eq fun p hp => h p (Placeholder.mem_tokens_iff.1 hp), hs]
  rfl

/-- A compiler may move, repeat, drop and respell rules: each one is answered where it stands,
and a statement that is put in is not read again. -/
theorem restore_weave (imports : List Text) (ext : Text) {gs : List Text} {ps : List Placeholder}
    (h : gs.length = ps.length + 1) (hgap : ∀ g ∈ gs, Placeholder.Absent g)
    (hrule : ∀ p ∈ ps, p.WellFormed ∧ p.digits.length ≤ Text.digitLimit) :
    restore (weave gs (ps.map Placeholder.written)) imports ext =
      ⟨warnings imports.length ps, .ok (weave gs (ps.map (answer imports ext)))⟩ := by
  have hp : ∀ p ∈ ps, p.WellFormed := fun p hp => (hrule p hp).1
  have ht := Placeholder.tokens_weave_of_absent h hgap hp
  rw [restore_eq (by rw [ht]; exact fun p hp => (hrule p hp).2), ht,
    Placeholder.fill_pieces_weave_of_absent _ h hgap hp]

/-- Two statements, the second asked for twice and once with a leading zero and blanks, between
gaps that break off within a rule; the last rule has an index of another script and no statement. -/
theorem restore_rearranged :
    let imports := ["@import 'a.less';".toList, "@import 'b.less';".toList]
    let spaced : Placeholder := ⟨['0', '1'], [' '], ['\n'], [], [' '], [], some ['\t'], by decide⟩
    let seven : Placeholder := ⟨['\u0667'], [], [], [], [], [], none, by decide⟩
    let gs := ["css-light1".toList, [], "\x7bdisplay:blo".toList, [], "\x7d\n".toList]
    let ps := [spaced, .ofIndex 0, .ofIndex 1, seven]
    restore (weave gs (ps.map Placeholder.written)) imports ".css".toList =
      ⟨warnings 2 [seven], .ok ("css-light1@import 'b.css';@import 'a.css';\x7bdisplay:blo".toList ++
        "@import 'b.css';".toList ++ seven.written ++ "\x7d\n".toList)⟩ := by
  intro imports spaced seven gs ps
  have hgap : ∀ g ∈ gs, Placeholder.Absent g := by
    simp only [Placeholder.absent_iff]
    decide +kernel
  have hrule : ∀ p ∈ ps, p.WellFormed ∧ p.digits.length ≤ Text.digitLimit := by decide +kernel
  have hw : warnings imports.length ps = warnings 2 [seven] := by decide +kernel
  have ha : weave gs (ps.map (answer imports ".css".toList)) =
      "css-light1@import 'b.css';@import 'a.css';\x7bdisplay:blo".toList ++ "@import 'b.css';".toList ++
        seven.written ++ "\x7d\n".toList := by decide +kernel
  rw [restore_weave imports ".css".toList rfl hgap hrule, hw, ha]

end StyleShield.Shield
