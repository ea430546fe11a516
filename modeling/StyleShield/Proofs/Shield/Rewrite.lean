import StyleShield.Proofs.Shield.Reading

/-! The extension of a recorded statement. In a statement that extraction records, the first dot with
letters or digits before a quote is the last one of the path, whatever dots and quotes stand
elsewhere in the text. So only the path is rewritten, the rewritten statement is read again where the
old one stood, and the last of several extensions decides (`rewrite_recorded`). -/
namespace StyleShield.Statement

variable {t r : Text} {s : Statement}

theorem Begins.replaceExtension_eq (h : Begins t s r) (ext : Text) :
    replaceExtension ext s.written = (s.renamePath ext).written :=
  replaceExtension_written_eq h.wellFormed h.ends ext

theorem Begins.replaceExtension_of_dotted (h : Begins t s r) (ext : Text) {stem w : Text} (hn : w ≠ [])
    (hw : w.all Char.isAlphanum = true) (hpath : s.path = stem ++ '.' :: w) :
    replaceExtension ext s.written = ({ s with path := stem ++ ext } : Statement).written := by
  have hrenamed : renamed ext s.path = stem ++ ext := by
    rw [hpath]
    exact renamed_append ⟨w, hn, hw, rfl⟩ ext stem
  rw [h.replaceExtension_eq, renamePath, hrenamed]

theorem Begins.replaceExtension_of_not_dotted (h : Begins t s r) (ext : Text)
    (hnone : ∀ stem w, w ≠ [] → w.all Char.isAlphanum = true → s.path ≠ stem ++ '.' :: w) :
    replaceExtension ext s.written = s.written := by
  have hrenamed : renamed ext s.path = s.path := by
    rcases renamed_cases s.path with ⟨stem, e, ⟨w, hn, hw, rfl⟩, hpath⟩ | hsame
    · exact absurd hpath (hnone stem w hn hw)
    · exact hsame ext
  rw [h.replaceExtension_eq, renamePath, hrenamed]

theorem Begins.renamePath (h : Begins t s r) {ext : Text} (hext : ∀ c ∈ ext, isQuote c = false) :
    Begins (replaceExtension ext s.written ++ r) (s.renamePath ext) r := by
  refine ⟨h.wellFormed.renamePath hext, h.ends, ?_⟩
  rw [h.replaceExtension_eq]

theorem Begins.replaceExtension_replaceExtension (h : Begins t s r) {e : Text} (he : Dotted e) (ext : Text) :
    replaceExtension ext (replaceExtension e s.written) = replaceExtension ext s.written := by
  have hbegins := h.renamePath he.not_isQuote
  rw [h.replaceExtension_eq, h.replaceExtension_eq, hbegins.replaceExtension_eq, renamePath_renamePath he]

end Statement

namespace Shield

open Statement (Dotted Reading replaceExtension)

theorem imports_extract_of_reading {content : Text} {ss : List (Nat × Statement)} (h : Reading 0 content ss)
    (ignored : Text → Bool) :
    (extract ignored content).imports = ((ss.map Prod.snd).filter fun s => !ignored s.path).map Statement.written := by
  rw [Statement.reading_iff.1 h, Lexeme.map_snd_spans]
  exact imports_eq ignored _

/-- Each recorded statement stands somewhere in the text. Rewriting its extension as a text replaces
the extension of its path, taken literally, and nothing else; without one it stays as it is. With
no quote in the extension the rewritten statement is the match at its place, with the same quote
and ending, and of two rewritings the second decides. -/
theorem rewrite_recorded (ignored : Text → Bool) (content : Text) :
    ∃ ss, Reading 0 content ss ∧
      (extract ignored content).imports =
        ((ss.map Prod.snd).filter fun s => !ignored s.path).map Statement.written ∧
      ∀ i s, (i, s) ∈ ss → ∃ a r, content = a ++ (s.written ++ r) ∧ a.length = i ∧
        (∀ ext, replaceExtension ext s.written = Statement.extensionExpression.replaceFirst ext s.written) ∧
        (∀ ext stem w, w ≠ [] → w.all Char.isAlphanum = true → s.path = stem ++ '.' :: w →
          replaceExtension ext s.written = ({ s with path := stem ++ ext } : Statement).written) ∧
        (∀ ext, (∀ stem w, w ≠ [] → w.all Char.isAlphanum = true → s.path ≠ stem ++ '.' :: w) →
          replaceExtension ext s.written = s.written) ∧
        (∀ ext, (∀ c ∈ ext, Statement.isQuote c = false) →
          ∃ s' : Statement, s'.written = replaceExtension ext s.written ∧
            s'.gap = s.gap ∧ s'.quote = s.quote ∧ s'.ending = s.ending ∧
            Statement.expression.ends (.start (s'.written ++ r)) = [Statement.endOf (s', r)]) ∧
        ∀ ext₁ ext₂, Dotted ext₁ →
          replaceExtension ext₂ (replaceExtension ext₁ s.written) = replaceExtension ext₂ s.written := by
  have hreading := Statement.reading_pieces 0 content
  refine ⟨_, hreading, imports_extract_of_reading hreading ignored, fun i s hs => ?_⟩
  obtain ⟨a, r, hcontent, hi, hb⟩ := hreading.begins hs
  refine ⟨a, r, hcontent, by omega, ?_, ?_, ?_, ?_, ?_⟩
  · intro ext
    exact (Statement.replaceFirst_extensionExpression ext s.written).symm
  · intro ext stem w hn hw hpath
    exact hb.replaceExtension_of_dotted ext hn hw hpath
  · intro ext hnone
    exact hb.replaceExtension_of_not_dotted ext hnone
  · intro ext hext
    have hbegins := hb.renamePath hext
    rw [hb.replaceExtension_eq] at hbegins
    refine ⟨s.renamePath ext, (hb.replaceExtension_eq ext).symm, rfl, rfl, rfl, ?_⟩
    rw [Statement.ends_expression, Statement.begins_iff.1 hbegins]
    rfl
  · intro ext₁ ext₂ hext
    exact hb.replaceExtension_replaceExtension hext ext₂

/-- A path with several dots, and one that ends in a dot and has no extension. -/
theorem rewrite_dots :
    let s : Statement := ⟨[' '], '\'', "a.b.less".toList, ['\t', ';']⟩
    let plain : Statement := ⟨[], '"', ['c', '.'], []⟩
    let content := s.written ++ plain.written
    (extract (fun _ => false) content).imports = [s.written, plain.written] ∧
      replaceExtension ".css".toList s.written = "@import 'a.b.css'\t;".toList ∧
      replaceExtension ".css".toList plain.written = plain.written ∧
      (∃ s' : Statement, s'.written = "@import 'a.b.css'\t;".toList ∧ s'.quote = '\'' ∧
        Statement.expression.ends (.start (s'.written ++ plain.written)) = [Statement.endOf (s', plain.written)]) ∧
      replaceExtension [] (replaceExtension ".css".toList s.written) = "@import 'a.b'\t;".toList := by
  intro s plain content
  obtain ⟨ss, hreading, himports, hrest⟩ := rewrite_recorded (fun _ => false) content
  have hss : ss = [(0, s), (20, plain)] := by
    rw [Statement.reading_iff.1 hreading]
    decide +kernel
  obtain ⟨a, r, hcontent, ha, -, hdotted, -, hplace, htwice⟩ := hrest 0 s (hss ▸ List.mem_cons_self)
  obtain ⟨-, -, -, -, -, -, hplain, -⟩ := hrest 20 plain (hss ▸ List.mem_cons_of_mem _ List.mem_cons_self)
  have hr : r = plain.written := by
    obtain rfl : a = [] := List.length_eq_zero_iff.1 ha
    exact (List.append_cancel_left hcontent).symm
  have hnew (ext : Text) := hdotted ext "a.b".toList "less".toList (by decide) (by decide) rfl
  have hcss : Dotted ".css".toList := ⟨"css".toList, by decide, by decide, rfl⟩
  obtain ⟨s', hs', -, hq, -, hends⟩ := hplace ".css".toList hcss.not_isQuote
  refine ⟨?_, hnew _, ?_, ⟨s', hs'.trans (hnew _), hq, hr ▸ hends⟩, ?_⟩
  · rw [himports, hss]
    rfl
  · refine hplain _ fun stem w hn hw hpath => ?_
    have hlast := congrArg (List.getLast? ·) hpath
    obtain ⟨c, hc⟩ := Option.isSome_iff_exists.1 (List.getLast?_isSome.2 hn)
    have hdot : c = '.' := by simpa [plain, List.getLast?_cons, hc, eq_comm] using hlast
    have halnum := List.all_eq_true.1 hw c (List.mem_of_getLast? hc)
    exact absurd (hdot ▸ halnum) (by decide)
  · exact (htwice _ _ hcss).trans (hnew [])

end Shield
end StyleShield
