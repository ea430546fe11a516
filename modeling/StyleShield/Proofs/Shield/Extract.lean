import Mathlib.Data.List.Basic
import StyleShield.Proofs.Ignore
import StyleShield.Proofs.Placeholder
import StyleShield.Proofs.Statement
import StyleShield.Shield

/-! What extraction does. The statements that are not ignored are taken out, in order, and
the text around them stays: shielding a text only lays placeholders where it took statements
(`text_extract`), and which statements there are does not depend on what is ignored
(`tokens_eq_weave`). -/
namespace StyleShield.Shield

open Lexeme

variable (ignored : Text → Bool) (content : Text)

/-- The pieces that are taken out: statements that are not ignored. -/
def isTaken : Piece Statement → Bool
  | .char _ => false
  | .token s => !ignored s.path

/-- The statements that are taken out. -/
def taken : List Statement := (Statement.lexeme.tokens content).filter fun s => !ignored s.path

/-- The rows of pieces before, between and after the statements that are taken out. -/
def rows : List (List (Piece Statement)) := (Statement.lexeme.pieces content).splitOnP (isTaken ignored)

def gaps : List Text := (rows ignored content).map Statement.lexeme.render

theorem filter_isTaken (ps : List (Piece Statement)) :
    ps.filter (isTaken ignored) = ((tokensOf ps).filter fun s => !ignored s.path).map .token := by
  induction ps with
  | nil => rfl
  | cons p ps ih =>
    cases p with
    | char c => simp [isTaken, ih]
    | token s => by_cases h : ignored s.path <;> simp [isTaken, h, ih]

theorem length_rows : (rows ignored content).length = (taken ignored content).length + 1 := by
  rw [rows, length_splitOnP, filter_isTaken, List.length_map]
  rfl

@[simp] theorem length_gaps : (gaps ignored content).length = (taken ignored content).length + 1 := by
  rw [gaps, List.length_map, length_rows]

theorem weave_rows :
    weave (rows ignored content) ((taken ignored content).map fun s => [.token s]) =
      Statement.lexeme.pieces content := by
  have h := weave_splitOnP (isTaken ignored) (Statement.lexeme.pieces content)
  rw [filter_isTaken, List.map_map] at h
  exact h

theorem weave_gaps :
    weave (gaps ignored content) ((taken ignored content).map Statement.written) = content := by
  have h := congrArg Statement.lexeme.render (weave_rows ignored content)
  rw [map_weave _ (render_append _) (by simp [length_rows]), List.map_map, render_pieces] at h
  simpa [gaps, Function.comp_def, renderPiece] using h

theorem tokens_eq_weave :
    Statement.lexeme.tokens content =
      weave ((rows ignored content).map tokensOf) ((taken ignored content).map fun s => [s]) := by
  have h := congrArg tokensOf (weave_rows ignored content)
  rw [map_weave _ tokensOf_append (by simp [length_rows]), List.map_map] at h
  simpa [Function.comp_def, tokens_eq] using h.symm

theorem ignored_of_mem_rows {row : List (Piece Statement)} (h : row ∈ rows ignored content)
    {s : Statement} (hs : s ∈ tokensOf row) : ignored s.path = true := by
  have hn := not_of_mem_splitOnP h (.token s) (mem_tokensOf.1 hs)
  simpa [isTaken] using hn

theorem imports_eq (ps : List (Piece Statement)) :
    imports ignored ps = ((tokensOf ps).filter fun s => !ignored s.path).map Statement.written := by
  induction ps with
  | nil => rfl
  | cons p ps ih =>
    cases p with
    | char c => simp [imports, ih]
    | token s => by_cases h : ignored s.path <;> simp [imports, h, ih]

/-- The numbers of the placeholders keep step with the statements taken out. -/
theorem mask_eq_weave (n : Nat) (ps : List (Piece Statement)) :
    mask ignored n ps =
      weave ((ps.splitOnP (isTaken ignored)).map Statement.lexeme.render)
        ((List.range' n (imports ignored ps).length).map fun i : Nat => Placeholder.tight i) := by
  induction ps generalizing n with
  | nil => simp [mask, imports]
  | cons p ps ih =>
    have hm := weave_map_modifyHead _ Statement.lexeme.render_append p
      (List.splitOnP_ne_nil (isTaken ignored) ps)
    rw [List.splitOnP_cons_eq_if_modifyHead]
    cases p with
    | char c => simp [mask, imports, isTaken, hm, ih, renderPiece]
    | token s =>
      by_cases hs : ignored s.path
      · simp [mask, imports, isTaken, hs, hm, ih, renderPiece]
      · simp [mask, imports, isTaken, hs, ih, List.range'_succ]

theorem extract_eq : extract ignored content =
    ⟨weave (gaps ignored content)
      ((List.range (taken ignored content).length).map fun i : Nat => Placeholder.tight i),
      (taken ignored content).map Statement.written⟩ := by
  have hi : imports ignored (Statement.lexeme.pieces content) =
      (taken ignored content).map Statement.written := imports_eq _ _
  simp only [extract, mask_eq_weave, hi, List.length_map, List.range_eq_range']
  rfl

theorem text_extract : (extract ignored content).text = weave (gaps ignored content)
    (((List.range (taken ignored content).length).map Placeholder.ofIndex).map Placeholder.written) := by
  have hw : (fun i : Nat => Placeholder.tight i) = Placeholder.written ∘ Placeholder.ofIndex := by
    funext i
    exact (Placeholder.written_ofIndex i).symm
  rw [extract_eq, hw, List.map_map]

@[simp] theorem imports_extract :
    (extract ignored content).imports = (taken ignored content).map Statement.written := by
  rw [extract_eq]

variable {ignored content} in
theorem absent_of_mem_gaps (h : Placeholder.Absent content) {g : Text} (hg : g ∈ gaps ignored content) :
    Placeholder.Absent g := by
  have hl : (gaps ignored content).length = ((taken ignored content).map Statement.written).length + 1 := by
    simp
  have hi := infix_weave_of_mem hl hg
  rw [weave_gaps] at hi
  exact fun p hp => h p (hp.of_infix hi)

/-- A text without placeholders gets those that are put in, and no others. -/
theorem tokens_extract (h : Placeholder.Absent content) :
    Placeholder.lexeme.tokens (extract ignored content).text =
      (List.range (taken ignored content).length).map Placeholder.ofIndex := by
  rw [text_extract]
  refine Placeholder.tokens_weave_of_absent (by simp) (fun g hg => absent_of_mem_gaps h hg) ?_
  intro p hp
  obtain ⟨i, -, rfl⟩ := List.mem_map.1 hp
  exact Placeholder.wellFormed_ofIndex i

variable {ignored} in
theorem taken_sublist {ignored' : Text → Bool} (h : ∀ c, ignored c = true → ignored' c = true) :
    (taken ignored' content).Sublist (taken ignored content) := by
  apply List.monotone_filter_right
  intro s hs
  by_contra hn
  have hi := h s.path (by simpa using hn)
  simp [hi] at hs

/-- Every text is made of the statements that are taken out and the gaps around them; the gaps
hold the other statements as they were, and placeholders numbered from zero take the place of
those taken out. What is taken out depends on the set of globs alone: with more globs some
statements are left that were taken before. -/
theorem extract_decomposition (ms : List Matcher) (packages : Bool) (content : Text) :
    let ignored := Ignore.ignores ms packages
    let e := extract ignored content
    let all := Statement.lexeme.tokens content
    let kept := all.filter fun s => !ignored s.path
    (∃ rows : List (List (Piece Statement)),
      rows.length = e.imports.length + 1 ∧
      content = weave (rows.map Statement.lexeme.render) e.imports ∧
      e.text = weave (rows.map Statement.lexeme.render)
        ((List.range e.imports.length).map fun i : Nat => Placeholder.tight i) ∧
      all = weave (rows.map tokensOf) (kept.map fun s => [s]) ∧
      ∀ row ∈ rows, ∀ s ∈ tokensOf row,
        ignored s.path = true ∧ s.written <:+: Statement.lexeme.render row) ∧
    (extract (Ignore.ignores [] false) content).imports = all.map Statement.written ∧
    e.imports = kept.map Statement.written ∧
    (Placeholder.Absent content →
      (Placeholder.lexeme.tokens e.text).map Placeholder.index = List.range e.imports.length) ∧
    ∀ globs globs' : List Text, Matcher.compileAll globs = .ok ms → globs ⊆ globs' →
      (globs' ⊆ globs → ∃ ms', Matcher.compileAll globs' = .ok ms' ∧
        extract (Ignore.ignores ms' packages) content = e) ∧
      ∀ ms', Matcher.compileAll globs' = .ok ms' →
        (extract (Ignore.ignores ms' packages) content).imports.Sublist e.imports := by
  intro ignored e all kept
  have he : e = extract ignored content := rfl
  have hk : kept = taken ignored content := rfl
  have hall : taken (Ignore.ignores [] false) content = all := by
    rw [taken, List.filter_eq_self]
    simp
  refine ⟨⟨rows ignored content, ?_, ?_, ?_, ?_, ?_⟩, ?_, ?_, ?_, ?_⟩
  · simp [he, length_rows]
  · rw [he, imports_extract]
    exact (weave_gaps ignored content).symm
  · rw [he, extract_eq, List.length_map]
    rfl
  · exact tokens_eq_weave ignored content
  · intro row hrow s hs
    exact ⟨ignored_of_mem_rows ignored content hrow hs, Statement.lexeme.infix_render_of_mem_tokensOf hs⟩
  · rw [imports_extract, hall]
  · rw [he, imports_extract, hk]
  · intro ha
    rw [he, tokens_extract ignored content ha, imports_extract, List.map_map, List.length_map]
    simp [Function.comp_def]
  · intro globs globs' hc hsub
    refine ⟨fun hsub' => ?_, fun ms' hc' => ?_⟩
    · obtain ⟨ms', hc'⟩ := Matcher.compileAll_of_subset hsub' hc
      have hms : ms ⊆ ms' := Matcher.compileAll_mono hsub hc hc'
      have hms' : ms' ⊆ ms := Matcher.compileAll_mono hsub' hc' hc
      exact ⟨ms', hc', by rw [he, Ignore.ignores_congr hms' hms packages]⟩
    · have hms : ms ⊆ ms' := Matcher.compileAll_mono hsub hc hc'
      rw [he, imports_extract, imports_extract]
      exact (taken_sublist content fun c hi => Ignore.ignores_mono (fun m hm => hms hm) hi).map _

end StyleShield.Shield
