import StyleShield.Proofs.Alike
import StyleShield.Proofs.Shield.RoundTrip

/-! Shielding and restoring with nothing in between and a new extension. The text becomes
itself with the extension of every statement replaced that is not ignored (`restore_rename`).
Doing so again changes nothing (`rename_rename`), although a new path may be ignored that was
not before. -/
namespace StyleShield.Shield

open Lexeme

variable (ignored : Text → Bool) (ext : Text)

/-- What a statement becomes. One that is ignored is left alone. -/
def renameStatement (s : Statement) : Statement :=
  if ignored s.path then s else s.withExtension ext

def rename (content : Text) : Text :=
  fill (fun s => (renameStatement ignored ext s).written) (Statement.lexeme.pieces content)

theorem renameStatement_cases (s : Statement) :
    renameStatement ignored ext s = s ∨ renameStatement ignored ext s = s.withExtension ext := by
  by_cases h : ignored s.path = true
  · exact .inl (if_pos h)
  · exact .inr (if_neg h)

variable {ignored ext}

theorem renameStatement_of_ignored {s : Statement} (h : ignored s.path = true) :
    renameStatement ignored ext s = s := if_pos h

@[simp] theorem ending_renameStatement (s : Statement) : (renameStatement ignored ext s).ending = s.ending := by
  rcases renameStatement_cases ignored ext s with h | h <;> simp [h]

@[simp] theorem rename_nil : rename ignored ext [] = [] := by simp [rename]

theorem rename_of_read {t r : Text} {s : Statement} (h : Statement.lexeme.read t = some (s, r)) :
    rename ignored ext t = (renameStatement ignored ext s).written ++ rename ignored ext r := by
  rw [rename, Statement.lexeme.pieces_of_read h, fill_token, rename]

theorem rename_of_read_none {c : Char} {cs : Text} (h : Statement.lexeme.read (c :: cs) = none) :
    rename ignored ext (c :: cs) = c :: rename ignored ext cs := by
  rw [rename, Statement.lexeme.pieces_of_read_none h, fill_char, rename]

section

variable (hext : ext = [] ∨ Statement.Dotted ext)
include hext

theorem wellFormed_renameStatement {s : Statement} (h : s.WellFormed) :
    (renameStatement ignored ext s).WellFormed := by
  rcases renameStatement_cases ignored ext s with hs | hs
  · rwa [hs]
  · rw [hs]
    exact h.withExtension hext

/-- The new path may be ignored or not: it stays as it is. -/
theorem renameStatement_renameStatement (s : Statement) :
    renameStatement ignored ext (renameStatement ignored ext s) = renameStatement ignored ext s := by
  rcases renameStatement_cases ignored ext s with h | h
  · rw [h, h]
  · rw [h]
    rcases renameStatement_cases ignored ext (s.withExtension ext) with h' | h'
    · exact h'
    · rw [h', Statement.withExtension_withExtension hext]

theorem alike_rename (content : Text) : Statement.Alike content (rename ignored ext content) := by
  fun_induction pieces Statement.lexeme content with
  | case1 =>
    rw [rename_nil]
    exact .nil
  | case2 c cs s r h ih =>
    obtain ⟨hs, -, he⟩ := Statement.read_eq_some_iff.1 h
    rw [rename_of_read h, he]
    rcases renameStatement_cases ignored ext s with hr | hr
    · rw [hr]
      exact (Statement.Alike.refl _).append ih
    · rw [hr]
      exact ih.withExtension hext hs.quote
  | case3 c cs h ih =>
    rw [rename_of_read_none h]
    exact .char c ih

/-- The statements of the new text are the new statements. -/
theorem pieces_rename (content : Text) :
    Statement.lexeme.pieces (rename ignored ext content) =
      (Statement.lexeme.pieces content).map (Piece.map (renameStatement ignored ext)) := by
  fun_induction pieces Statement.lexeme content with
  | case1 => rw [rename_nil, pieces_nil, List.map_nil]
  | case2 c cs s r h ih =>
    obtain ⟨hs, he, -⟩ := Statement.read_eq_some_iff.1 h
    have he' : Statement.Ends (renameStatement ignored ext s).ending (rename ignored ext r) := by
      rw [ending_renameStatement]
      exact (alike_rename hext r).ends he
    have hr : Statement.lexeme.read ((renameStatement ignored ext s).written ++ rename ignored ext r) =
        some (renameStatement ignored ext s, rename ignored ext r) :=
      Statement.read_written_append (wellFormed_renameStatement hext hs) he'
    rw [rename_of_read h, Statement.lexeme.pieces_of_read hr, ih, List.map_cons]
    rfl
  | case3 c cs h ih =>
    have ha : Statement.Alike (c :: cs) (c :: rename ignored ext cs) := .char c (alike_rename hext cs)
    have hr : Statement.lexeme.read (c :: rename ignored ext cs) = none := ha.read_eq_none h
    rw [rename_of_read_none h, Statement.lexeme.pieces_of_read_none hr, ih, List.map_cons]
    rfl

theorem rename_rename (content : Text) :
    rename ignored ext (rename ignored ext content) = rename ignored ext content := by
  have h : ∀ s ∈ tokensOf (Statement.lexeme.pieces content),
      (renameStatement ignored ext (renameStatement ignored ext s)).written =
        (renameStatement ignored ext s).written :=
    fun s _ => congrArg Statement.written (renameStatement_renameStatement hext s)
  rw [rename, pieces_rename hext, fill_map]
  exact fill_congr h

theorem length_taken_rename_le (content : Text) :
    (taken ignored (rename ignored ext content)).length ≤ (taken ignored content).length := by
  have hs : ∀ s : Statement, (!ignored (renameStatement ignored ext s).path) = true →
      (!ignored s.path) = true := by
    intro s hs
    by_contra hn
    have hi : ignored s.path = true := by simpa using hn
    rw [renameStatement_of_ignored hi] at hs
    exact hn hs
  rw [taken, tokens_eq, pieces_rename hext, tokensOf_map, List.filter_map, List.length_map]
  exact (List.monotone_filter_right _ hs).length_le

end

theorem rename_eq_weave (content : Text) : rename ignored ext content =
    weave (gaps ignored content) ((taken ignored content).map fun s => (s.withExtension ext).written) := by
  have hl : (rows ignored content).length = ((taken ignored content).map fun s => [Piece.token s]).length + 1 := by
    simp [length_rows]
  have hrow : ∀ row ∈ rows ignored content,
      fill (fun s => (renameStatement ignored ext s).written) row = Statement.lexeme.render row := by
    intro row hrow
    rw [← fill_written]
    refine fill_congr fun s hs => ?_
    rw [renameStatement_of_ignored (ignored_of_mem_rows ignored content hrow hs)]
    rfl
  have htaken : ∀ s ∈ taken ignored content, renameStatement ignored ext s = s.withExtension ext := by
    intro s hs
    have hn : ¬ ignored s.path = true := by simpa using (List.mem_filter.1 hs).2
    exact if_neg hn
  rw [rename, ← weave_rows ignored content, map_weave _ (fill_append _) hl, List.map_map,
    List.map_congr_left hrow]
  congr 1
  refine List.map_congr_left fun s hs => ?_
  simp [htaken s hs]

theorem written_withExtension_of_mem_taken {content : Text} {s : Statement} (hs : s ∈ taken ignored content) :
    (if ext = [] then s.written else Statement.replaceExtension ext s.written) =
      (s.withExtension ext).written := by
  by_cases hn : ext = []
  · simp [Statement.withExtension, hn]
  · obtain ⟨a, r, -, hr⟩ := Statement.lexeme.exists_of_mem_tokens (List.mem_filter.1 hs).1
    rw [Statement.lexeme_read] at hr
    obtain ⟨hw, he, -⟩ := Statement.read_eq_some_iff.1 hr
    rw [if_neg hn, Statement.replaceExtension_written hw he hn]

/-- Shielding and restoring is nothing but that, where the text has no placeholders of its own. -/
theorem restore_rename {content : Text} (ha : Placeholder.Absent content)
    (hn : (extract ignored content).imports.length ≤ 10 ^ Text.digitLimit) :
    (restore (extract ignored content).text (extract ignored content).imports ext).result =
      .ok (rename ignored ext content) := by
  have hgap : ∀ g ∈ gaps ignored content, Placeholder.Absent g := fun g hg => absent_of_mem_gaps ha hg
  have hfill : ∀ g ∈ gaps ignored content,
      fill (answer (extract ignored content).imports ext) (Placeholder.lexeme.pieces g) = g :=
    fun g hg => fill_pieces_eq_self _ (by simp [Placeholder.absent_iff.1 (hgap g hg)])
  rw [restore_extract (fun g hg p hp => absurd hp (hgap g hg p)) hn, fill_extract, map_answer_ofIndex,
    List.map_congr_left hfill, rename_eq_weave, imports_extract, List.map_map, List.map_id']
  exact congrArg _ (congrArg _ (List.map_congr_left fun s hs => written_withExtension_of_mem_taken hs))

end StyleShield.Shield
