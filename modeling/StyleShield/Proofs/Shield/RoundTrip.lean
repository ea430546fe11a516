import StyleShield.Proofs.Shield.Extract
import StyleShield.Proofs.Shield.Restore

/-! Shielding and restoring with nothing in between. What was taken out comes back to its
place, whatever it looks like; only a placeholder that the text held before, outside the
statements taken out, can be mistaken for one that was put in (`restore_extract_eq_iff`). -/
namespace StyleShield.Shield

open Lexeme

/-- A statement begins with an at sign and a rule does not: the first rule that is answered by
a statement shows, whatever comes after it. -/
theorem fill_answer_eq_or_ne {imports : List Text} (hs : ∀ s ∈ imports, s.head? = some '@')
    (ps : List (Piece Placeholder)) :
    (∀ p ∈ tokensOf ps, imports.length ≤ p.index) ∨
      ∀ u v, fill (answer imports []) ps ++ u ≠ Placeholder.lexeme.render ps ++ v := by
  induction ps with
  | nil => simp
  | cons q ps ih =>
    cases q with
    | char c =>
      rcases ih with h | h
      · exact .inl h
      · right
        intro u v he
        simp only [fill_char, render_cons, renderPiece, List.cons_append, List.cons.injEq] at he
        exact h u v he.2
    | token p =>
      by_cases hp : imports.length ≤ p.index
      · rcases ih with h | h
        · left
          simpa [hp] using h
        · right
          intro u v he
          rw [fill_token, answer_of_le hp, render_cons, List.append_assoc, List.append_assoc] at he
          exact h u v (List.append_cancel_left he)
      -- The first rule that has a statement: an at sign stands where the rule has a letter.
      · right
        intro u v he
        have hl : p.index < imports.length := by omega
        have ha := hs _ (List.getElem_mem hl)
        obtain ⟨t, ht⟩ := List.head?_eq_some_iff.1 ha
        rw [fill_token, answer_of_lt hl, ht, render_cons, renderPiece] at he
        change '@' :: _ = p.written ++ _ ++ v at he
        simp [Placeholder.written, Placeholder.stem] at he

theorem fill_answer_shows {imports : List Text} (hs : ∀ s ∈ imports, s.head? = some '@') (g : Text) :
    fill (answer imports []) (Placeholder.lexeme.pieces g) = g ∨
      ∀ u v, fill (answer imports []) (Placeholder.lexeme.pieces g) ++ u ≠ g ++ v := by
  rcases fill_answer_eq_or_ne hs (Placeholder.lexeme.pieces g) with h | h
  · exact .inl (fill_pieces_eq_self _ fun p hp => answer_of_le (h p hp))
  · right
    rwa [render_pieces] at h

theorem fill_answer_eq_self_iff {imports : List Text} (hs : ∀ s ∈ imports, s.head? = some '@') {g : Text} :
    fill (answer imports []) (Placeholder.lexeme.pieces g) = g ↔
      ∀ p : Placeholder, p.OccursIn g → imports.length ≤ p.index := by
  simp only [← Placeholder.mem_tokens_iff]
  refine ⟨fun hf => ?_, fun h => fill_pieces_eq_self _ fun p hp => answer_of_le (h p hp)⟩
  rcases fill_answer_eq_or_ne hs (Placeholder.lexeme.pieces g) with h | h
  · exact h
  · exact absurd (by rw [hf, render_pieces]) (h [] [])

theorem map_answer_ofIndex (imports : List Text) (ext : Text) :
    ((List.range imports.length).map Placeholder.ofIndex).map (answer imports ext) =
      imports.map fun s => if ext = [] then s else Statement.replaceExtension ext s := by
  apply List.ext_getElem
  · simp
  · intro i h₁ h₂
    have hi : i < imports.length := by simpa using h₂
    simp [answer, hi]

variable (ignored : Text → Bool) (content : Text)

theorem head?_of_mem_imports {s : Text} (h : s ∈ (extract ignored content).imports) :
    s.head? = some '@' := by
  rw [imports_extract] at h
  obtain ⟨t, -, rfl⟩ := List.mem_map.1 h
  rfl

theorem mem_tokens_extract {p : Placeholder} :
    p ∈ Placeholder.lexeme.tokens (extract ignored content).text ↔
      (∃ g ∈ gaps ignored content, p.OccursIn g) ∨
        ∃ i < (extract ignored content).imports.length, p = Placeholder.ofIndex i := by
  rw [text_extract, Placeholder.tokens_weave (by simp) (by simp [Placeholder.wellFormed_ofIndex]),
    mem_weave (by simp)]
  simp [Placeholder.mem_tokens_iff, eq_comm]

theorem fill_extract (f : Placeholder → Text) :
    fill f (Placeholder.lexeme.pieces (extract ignored content).text) =
      weave ((gaps ignored content).map fun g => fill f (Placeholder.lexeme.pieces g))
        (((List.range (extract ignored content).imports.length).map Placeholder.ofIndex).map f) := by
  rw [text_extract, Placeholder.fill_pieces_weave f (by simp) (by simp [Placeholder.wellFormed_ofIndex])]
  simp

/-- Past this many imports the last placeholders have too many digits to be read. -/
theorem length_imports_le_of_restore {ext s : Text}
    (h : (restore (extract ignored content).text (extract ignored content).imports ext).result = .ok s) :
    (extract ignored content).imports.length ≤ 10 ^ Text.digitLimit := by
  have hd := restorePieces_result_ok_iff.1 ⟨s, h⟩
  by_contra hn
  obtain ⟨i, he, hi⟩ : ∃ i, i = 10 ^ Text.digitLimit ∧ i < (extract ignored content).imports.length :=
    ⟨_, rfl, Nat.lt_of_not_le hn⟩
  have hm := (mem_tokens_extract ignored content).2 (.inr ⟨i, hi, rfl⟩)
  have hl : i < 10 ^ Text.digitLimit := Text.length_ofNat_le_digitLimit_iff.1 (hd _ hm)
  exact absurd he (Nat.ne_of_lt hl)

variable {ignored content} in
theorem restore_extract {ext : Text}
    (hlong : ∀ g ∈ gaps ignored content, ∀ p : Placeholder, p.OccursIn g → p.digits.length ≤ Text.digitLimit)
    (hn : (extract ignored content).imports.length ≤ 10 ^ Text.digitLimit) :
    (restore (extract ignored content).text (extract ignored content).imports ext).result =
      .ok (fill (answer (extract ignored content).imports ext)
        (Placeholder.lexeme.pieces (extract ignored content).text)) := by
  have hd : ∀ p ∈ Placeholder.lexeme.tokens (extract ignored content).text,
      p.digits.length ≤ Text.digitLimit := by
    intro p hp
    rcases (mem_tokens_extract ignored content).1 hp with ⟨g, hg, ho⟩ | ⟨i, hi, rfl⟩
    · exact hlong g hg p ho
    · exact Text.length_ofNat_le_digitLimit_iff.2 (Nat.lt_of_lt_of_le hi hn)
  rw [restore_eq hd]

/-- A text comes back exactly if no gap holds a placeholder with an index that was given out.
Indices of more digits than are read would need more imports than any text can hold. -/
theorem restore_extract_eq_iff (ms : List Matcher) (packages : Bool) (content : Text)
    (hlong : ∀ g ∈ gaps (Ignore.ignores ms packages) content, ∀ p : Placeholder,
      p.OccursIn g → p.digits.length ≤ Text.digitLimit) :
    let ignored := Ignore.ignores ms packages
    let e := extract ignored content
    let gs := gaps ignored content
    gs.length = e.imports.length + 1 ∧ content = weave gs e.imports ∧
    e.text = weave gs ((List.range e.imports.length).map fun i : Nat => Placeholder.tight i) ∧
    ((restore e.text e.imports []).result = .ok content ↔
      e.imports.length ≤ 10 ^ Text.digitLimit ∧
        ∀ g ∈ gs, ∀ p : Placeholder, p.OccursIn g → e.imports.length ≤ p.index) := by
  intro ignored e gs
  have hlen : gs.length = e.imports.length + 1 := by simp [gs, e]
  have hw : weave gs e.imports = content := by
    rw [imports_extract]
    exact weave_gaps ignored content
  have ht : e.text = weave gs ((List.range e.imports.length).map fun i : Nat => Placeholder.tight i) := by
    simp only [e, extract_eq, List.length_map]
    rfl
  have hs : ∀ s ∈ e.imports, s.head? = some '@' := fun s hm => head?_of_mem_imports ignored content hm
  refine ⟨hlen, hw.symm, ht, ?_⟩
  by_cases hn : e.imports.length ≤ 10 ^ Text.digitLimit
  · have hr : (restore e.text e.imports []).result =
        .ok (weave (gs.map fun g => fill (answer e.imports []) (Placeholder.lexeme.pieces g)) e.imports) := by
      have hm := map_answer_ofIndex e.imports []
      simp only [if_true, List.map_id'] at hm
      rw [restore_extract hlong hn, fill_extract, hm]
    have hg := weave_map_eq_iff (fill_answer_shows hs) hlen
    rw [hw] at hg
    rw [hr, Except.ok.injEq, hg]
    simp [hn, fill_answer_eq_self_iff hs]
  · have hr : (restore e.text e.imports []).result ≠ .ok content := fun h =>
      hn (length_imports_le_of_restore ignored content h)
    simp [hr, hn]

/-- Texts that look like placeholders do no harm inside of what is taken out, nor outside with
an index that is not given out. -/
theorem restore_extract_lookalikes :
    let content := "@import 'css-light0\x7bdisplay:block\x7d'; css-light1\x7bdisplay:block\x7d".toList
    let e := extract (Ignore.ignores [] false) content
    e.imports = ["@import 'css-light0\x7bdisplay:block\x7d';".toList] ∧
      (restore e.text e.imports []).result = .ok content := by
  intro content e
  have hlong : ∀ g ∈ gaps (Ignore.ignores [] false) content, ∀ p : Placeholder,
      p.OccursIn g → p.digits.length ≤ Text.digitLimit := by
    simp only [← Placeholder.mem_tokens_iff]
    decide +kernel
  have hi : e.imports = ["@import 'css-light0\x7bdisplay:block\x7d';".toList] := by decide +kernel
  have hn : e.imports.length ≤ 10 ^ Text.digitLimit := by
    rw [hi]
    exact Nat.one_le_pow _ _ (by decide)
  have hg : ∀ g ∈ gaps (Ignore.ignores [] false) content, ∀ p : Placeholder,
      p.OccursIn g → e.imports.length ≤ p.index := by
    simp only [← Placeholder.mem_tokens_iff]
    decide +kernel
  exact ⟨hi, (restore_extract_eq_iff [] false content hlong).2.2.2.2 ⟨hn, hg⟩⟩

end StyleShield.Shield
