import StyleShield.Proofs.Shield.Reading
import StyleShield.Proofs.Shield.RoundTrip
import StyleShield.Proofs.Text.Strip

/-! Restoring after a compiler that only lays out the text around the rules anew. The statements come
back between the new gaps. One with a semicolon of its own can be read there again, whatever follows;
one without was recorded because its line ended, and can be read again as long as a line still ends
there (`restore_reformatted`). A compiler that joins lines lets it run into what follows
(`restore_joined_line`). -/
namespace StyleShield

namespace Placeholder

theorem solid_written (p : Placeholder) : Text.Solid p.written :=
  ⟨⟨'c', _, p.written_eq_letters, by decide⟩, ⟨_, '}', by rw [written, bodyText, ← List.append_assoc], by decide⟩⟩

theorem absent_strip_iff {s : Text} : Absent (Text.strip s) ↔ Absent s := by
  have hiff (p : Placeholder) : p.OccursIn (Text.strip s) ↔ p.OccursIn s :=
    and_congr_right fun _ => Text.infix_strip_iff p.solid_written
  exact forall_congr' fun p => not_congr (hiff p)

theorem digits_ofIndex_le_iff (count : Nat) :
    (∀ p ∈ (List.range count).map ofIndex, p.digits.length ≤ Text.digitLimit) ↔ count ≤ 10 ^ Text.digitLimit := by
  have hone (i : Nat) : (ofIndex i).digits.length ≤ Text.digitLimit ↔ i < 10 ^ Text.digitLimit :=
    Text.length_ofNat_le_digitLimit_iff
  simp only [List.forall_mem_map, List.mem_range, hone]
  exact forall_lt_iff_le

end Placeholder

namespace Statement

variable {t r r' : Text} {s : Statement}

/-- Where a statement is put, the expression for statements matches it and no more exactly if it has a
semicolon of its own or the line ends behind it. -/
theorem Begins.ends_written_iff (h : Begins t s r) :
    expression.ends (.start (s.written ++ r')) = [endOf (s, r')] ↔ s.ending ≠ [] ∨ AtLineEnd r' := by
  rw [ends_expression]
  constructor
  · intro hmatch
    by_cases hsemicolon : s.ending = []
    · right
      rw [read_opened h.wellFormed hsemicolon] at hmatch
      cases hread : readEnding r' with
      | none => simp [hread] at hmatch
      | some m =>
        have hrest : m.2 = r' := by
          simp only [hread, Option.map_some, Option.toList_some, List.cons.injEq, and_true] at hmatch
          exact congrArg Expression.Spot.rest hmatch
        obtain ⟨htext, hends⟩ := readEnding_eq_some_iff.1 hread
        have hnothing : m.1 = [] := by
          rw [hrest] at htext
          exact List.self_eq_append_left.1 htext
        rw [hnothing, hrest] at hends
        rcases hends with ⟨g, -, hg⟩ | ⟨-, hline⟩
        · simp at hg
        · exact hline
    · exact .inl hsemicolon
  · intro hor
    have hends : Ends s.ending r' := by
      rcases h.ends with hown | ⟨hnothing, -⟩
      · exact .inl hown
      · exact .inr ⟨hnothing, hor.resolve_left (not_not_intro hnothing)⟩
    rw [read_written_append h.wellFormed hends]
    rfl

end Statement

namespace Shield

open Lexeme
open Statement (Begins)

variable {ignored : Text → Bool} {content : Text}

theorem exists_begins_of_mem_taken {s : Statement} (h : s ∈ taken ignored content) :
    ∃ r, Begins (s.written ++ r) s r := by
  obtain ⟨a, r, -, hread⟩ := Statement.lexeme.exists_of_mem_tokens (List.mem_filter.1 h).1
  exact ⟨r, Statement.begins_iff.2 hread⟩

theorem restore_between {gs imports : List Text} (h : gs.length = imports.length + 1)
    (hgap : ∀ g ∈ gs, Placeholder.Absent g) :
    (imports.length ≤ 10 ^ Text.digitLimit →
      restore (weave gs (((List.range imports.length).map Placeholder.ofIndex).map Placeholder.written)) imports [] =
        ⟨[], .ok (weave gs imports)⟩) ∧
    ∀ r, (restore (weave gs (((List.range imports.length).map Placeholder.ofIndex).map Placeholder.written))
      imports []).result = .ok r → imports.length ≤ 10 ^ Text.digitLimit := by
  have hlength : gs.length = ((List.range imports.length).map Placeholder.ofIndex).length + 1 := by simpa using h
  have hwell : ∀ p ∈ (List.range imports.length).map Placeholder.ofIndex, p.WellFormed := by
    simp [Placeholder.wellFormed_ofIndex]
  constructor
  · intro hcount
    have hdigits := (Placeholder.digits_ofIndex_le_iff imports.length).2 hcount
    have hanswers : ((List.range imports.length).map Placeholder.ofIndex).map (answer imports []) = imports := by
      rw [map_answer_ofIndex]
      simp
    have hquiet : warnings imports.length ((List.range imports.length).map Placeholder.ofIndex) = [] := by
      simp [warnings]
    rw [restore_weave imports [] hlength hgap fun p hp => ⟨hwell p hp, hdigits p hp⟩, hquiet, hanswers]
  · intro r hr
    have htokens := Placeholder.tokens_weave_of_absent hlength hgap hwell
    have hdigits := restorePieces_result_ok_iff.1 ⟨r, hr⟩
    rw [← tokens_eq, htokens] at hdigits
    exact (Placeholder.digits_ofIndex_le_iff imports.length).1 hdigits

/-- A compiler that changes only the blanks at the ends of the gaps gets each statement back between its
new gaps. Where it is put back it is matched, and nothing more than it, exactly if it has a semicolon of
its own or if the text behind it still has only inline blanks before the end of the line. -/
theorem restore_reformatted (ms : List Matcher) (packages : Bool) {content : Text} {gaps' : List Text}
    (ha : Placeholder.Absent content)
    (hgaps : gaps'.map Text.strip = (gaps (Ignore.ignores ms packages) content).map Text.strip) :
    let ss := taken (Ignore.ignores ms packages) content
    let e := extract (Ignore.ignores ms packages) content
    let compiled := weave gaps' ((List.range e.imports.length).map fun i : Nat => Placeholder.tight i)
    let restored := weave gaps' e.imports
    e.imports = ss.map Statement.written ∧
    content = weave (gaps (Ignore.ignores ms packages) content) e.imports ∧
    (e.imports.length ≤ 10 ^ Text.digitLimit → restore compiled e.imports [] = ⟨[], .ok restored⟩) ∧
    (∀ r, (restore compiled e.imports []).result = .ok r → r = restored) ∧
    ∀ i (hi : i < ss.length),
      let behind := weave (gaps'.drop (i + 1)) (e.imports.drop (i + 1))
      restored = weave (gaps'.take (i + 1)) (e.imports.take i) ++ (ss[i].written ++ behind) ∧
        (Statement.expression.ends (.start (ss[i].written ++ behind)) = [Statement.endOf (ss[i], behind)] ↔
          ss[i].ending ≠ [] ∨ Statement.AtLineEnd behind) := by
  intro ss e compiled restored
  have himports : e.imports = ss.map Statement.written := imports_extract _ content
  have hlength : gaps'.length = e.imports.length + 1 := by
    have hsame := congrArg List.length hgaps
    rw [List.length_map, List.length_map, length_gaps] at hsame
    rw [hsame, himports, List.length_map]
  have habsent : ∀ g ∈ gaps', Placeholder.Absent g := by
    intro g hg
    have hmem : Text.strip g ∈ (gaps (Ignore.ignores ms packages) content).map Text.strip :=
      hgaps ▸ List.mem_map_of_mem hg
    obtain ⟨g₀, hg₀, hstrip⟩ := List.mem_map.1 hmem
    have hold : Placeholder.Absent g₀ := absent_of_mem_gaps ha hg₀
    rwa [← Placeholder.absent_strip_iff, ← hstrip, Placeholder.absent_strip_iff]
  have hcompiled : compiled =
      weave gaps' (((List.range e.imports.length).map Placeholder.ofIndex).map Placeholder.written) := by
    simp [compiled, Function.comp_def, Placeholder.written_ofIndex]
  obtain ⟨hrestore, hcount⟩ := restore_between hlength habsent
  rw [← hcompiled] at hrestore hcount
  refine ⟨himports, ?_, hrestore, ?_, ?_⟩
  · rw [himports]
    exact (weave_gaps _ content).symm
  · intro r hr
    have hresult := congrArg Run.result (hrestore (hcount r hr))
    exact Except.ok.inj (hr.symm.trans hresult)
  · intro i hi behind
    have hi' : i < e.imports.length := by simpa [himports] using hi
    have hwritten : e.imports[i] = ss[i].written := by simp [himports]
    obtain ⟨r, hbegins⟩ := exists_begins_of_mem_taken (List.getElem_mem hi)
    refine ⟨?_, hbegins.ends_written_iff⟩
    rw [← hwritten]
    exact weave_eq_before_after hlength hi'

/-- A statement with a semicolon that another one follows on its line, and one without a semicolon
that keeps the end of its line behind a blank and a carriage return. -/
theorem restore_reformatted_lines :
    let content := "@import 'a';\n@import \"b\"\nx".toList
    let gaps' := [" ".toList, [], " \r\n\tx\n".toList]
    let e := extract (Ignore.ignores [] false) content
    gaps'.map Text.strip = (gaps (Ignore.ignores [] false) content).map Text.strip ∧
      (restore (weave gaps' [Placeholder.tight 0, Placeholder.tight 1]) e.imports []).result =
        .ok " @import 'a';@import \"b\" \r\n\tx\n".toList ∧
      Statement.expression.ends (.start "@import 'a';@import \"b\" \r\n\tx\n".toList) =
        [Statement.endOf (⟨[' '], '\'', ['a'], [';']⟩, "@import \"b\" \r\n\tx\n".toList)] ∧
      Statement.expression.ends (.start "@import \"b\" \r\n\tx\n".toList) =
        [Statement.endOf (⟨[' '], '"', ['b'], []⟩, " \r\n\tx\n".toList)] := by
  intro content gaps' e
  have ha : Placeholder.Absent content := Placeholder.absent_iff.2 (by decide +kernel)
  have hgaps : gaps'.map Text.strip = (gaps (Ignore.ignores [] false) content).map Text.strip := by decide +kernel
  have htaken : taken (Ignore.ignores [] false) content =
      [⟨[' '], '\'', ['a'], [';']⟩, ⟨[' '], '"', ['b'], []⟩] := by decide +kernel
  obtain ⟨himports, -, hrestore, -, hplace⟩ := restore_reformatted [] false ha hgaps
  simp only [himports, htaken] at hrestore hplace
  have hcount : 2 ≤ 10 ^ Text.digitLimit := Nat.one_lt_pow (by decide) (by decide)
  have hblank : ∀ c ∈ [' '], Text.isInlineBlank c = true := List.forall_mem_singleton.2 rfl
  have hline : Statement.AtLineEnd " \r\n\tx\n".toList := ⟨[' '], "\r\n\tx\n".toList, hblank, rfl, rfl⟩
  have hfirst := (hplace 0 (by decide)).2.2 (.inl (by simp))
  have hsecond := (hplace 1 (by decide)).2.2 (.inr hline)
  refine ⟨hgaps, ?_, hfirst, hsecond⟩
  rw [himports, htaken]
  exact congrArg Run.result (hrestore hcount)

/-- Where the compiler puts what follows on the line of a statement without a semicolon, the statement
is no longer matched. -/
theorem restore_joined_line :
    let content := "@import 'a'\nb\x7b\x7d".toList
    let gaps' := [[], "b\x7b\x7d".toList]
    let e := extract (Ignore.ignores [] false) content
    Placeholder.Absent content ∧
      gaps'.map Text.strip = (gaps (Ignore.ignores [] false) content).map Text.strip ∧
      restore (weave gaps' [Placeholder.tight 0]) e.imports [] = ⟨[], .ok "@import 'a'b\x7b\x7d".toList⟩ ∧
      e.imports = ["@import 'a'".toList] ∧
      Statement.expression.ends (.start "@import 'a'b\x7b\x7d".toList) = [] := by
  intro content gaps' e
  have himports : e.imports = ["@import 'a'".toList] := by decide +kernel
  have ha : Placeholder.Absent content := Placeholder.absent_iff.2 (by decide +kernel)
  have habsent : ∀ g ∈ gaps', Placeholder.Absent g := by
    simp only [Placeholder.absent_iff]
    decide +kernel
  have hrestore := (restore_between (by rw [himports]; rfl : gaps'.length = e.imports.length + 1) habsent).1
  rw [himports] at hrestore ⊢
  exact ⟨ha, by decide +kernel, hrestore (Nat.one_le_pow _ _ (by decide)), rfl, by decide +kernel⟩

end Shield
end StyleShield
