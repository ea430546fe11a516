import StyleShield.Proofs.Shield.Extract
import StyleShield.Proofs.Statement.Expression
import StyleShield.Proofs.Statement.Reading

/-! What is recorded is what the grammar says. Extraction takes out the statements of the greedy
reading of a text, each where the regular expression for statements has its one match; what the
grammar refuses is not taken out, and what shares no character with a statement stays as it is
(`extract_accepts_grammar`). -/
namespace StyleShield.Shield

open Lexeme
open Statement (Begins Reading)

variable {ignored : Text → Bool} {content : Text}

section Pieces

theorem imports_append (ps qs : List (Piece Statement)) :
    imports ignored (ps ++ qs) = imports ignored ps ++ imports ignored qs := by
  simp [imports_eq]

theorem imports_chars (x : Text) : imports ignored (x.map .char) = [] := by
  induction x with
  | nil => rfl
  | cons c x ih => exact ih

theorem mask_append (n : Nat) (ps qs : List (Piece Statement)) :
    mask ignored n (ps ++ qs) = mask ignored n ps ++ mask ignored (n + (imports ignored ps).length) qs := by
  induction ps generalizing n with
  | nil => rfl
  | cons p ps ih =>
    cases p with
    | char c => simp [mask, imports, ih]
    | token s =>
      by_cases hs : ignored s.path = true
      · simp [mask, imports, hs, ih]
      · have hcount : n + ((imports ignored ps).length + 1) = n + 1 + (imports ignored ps).length := by omega
        simp [mask, imports, hs, ih, hcount]

theorem mask_chars (n : Nat) (x : Text) : mask ignored n (x.map .char) = x := by
  induction x with
  | nil => rfl
  | cons c x ih => exact congrArg (c :: ·) ih

theorem render_eq_weave (ps : List (Piece Statement)) : Statement.lexeme.render ps =
    weave ((ps.splitOnP (isTaken ignored)).map Statement.lexeme.render) (imports ignored ps) := by
  have hrows := weave_splitOnP (isTaken ignored) ps
  have hlength := length_splitOnP (isTaken ignored) ps
  have h := congrArg Statement.lexeme.render hrows
  rw [map_weave _ (render_append _) (by simp [hlength]), filter_isTaken, List.map_map, List.map_map] at h
  rw [← h, imports_eq]
  refine congrArg _ (List.map_congr_left fun s _ => ?_)
  simp [renderPiece]

end Pieces

/-- The placeholders of `count` statements from a number on. -/
def tights (first count : Nat) : List Text := (List.range' first count).map fun i : Nat => Placeholder.tight i

/-- A stretch of the text stays in its place between what became of the text before and behind it. -/
def Stays (e : Shielded) (a x z : Text) : Prop :=
  ∃ before after ss ss', e.imports = ss ++ ss' ∧ before.length = ss.length + 1 ∧ after.length = ss'.length + 1 ∧
    a = weave before ss ∧ z = weave after ss' ∧
    e.text = weave before (tights 0 ss.length) ++ x ++ weave after (tights ss.length ss'.length)

theorem stays_of_apart {a x z : Text} (h : content = a ++ x ++ z)
    (hx : Statement.lexeme.Apart 0 (Statement.lexeme.pieces content) a.length x.length) :
    Stays (extract ignored content) a x z := by
  have hrender : Statement.lexeme.render (Statement.lexeme.pieces content) = a ++ x ++ z :=
    (Statement.lexeme.render_pieces content).trans h
  rw [← Nat.zero_add a.length] at hx
  obtain ⟨ps, qs, hsplit, rfl, rfl⟩ := exists_pieces_of_apart hrender hx
  have hlength (ps : List (Piece Statement)) :
      ((ps.splitOnP (isTaken ignored)).map Statement.lexeme.render).length = (imports ignored ps).length + 1 := by
    rw [List.length_map, length_splitOnP, filter_isTaken, imports_eq, List.length_map, List.length_map]
  refine ⟨_, _, imports ignored ps, imports ignored qs, ?_, hlength ps, hlength qs, render_eq_weave ps,
    render_eq_weave qs, ?_⟩
  · simp [extract, hsplit, imports_append, imports_chars]
  · simp only [extract, hsplit, mask_append, mask_chars, imports_append, imports_chars, List.append_nil,
      Nat.zero_add]
    rw [mask_eq_weave, mask_eq_weave]
    rfl

/-- Extraction records the statements of the one greedy reading of a text. A text begins with at most
one statement, and the regular expression for statements has no other match there. An opener that
is followed by anything but an ending is not recorded; as far as it shares no character with what
is recorded, it stays in its place with whatever follows it. -/
theorem extract_accepts_grammar (content : Text) :
    let e := extract (Ignore.ignores [] false) content
    ∃ ss, Reading 0 content ss ∧ (∀ ss', Reading 0 content ss' → ss' = ss) ∧
      e.imports = ss.map (·.2.written) ∧
      (∀ t s r s' r', Begins t s r → Begins t s' r' → s = s' ∧ r = r') ∧
      (∀ t, (Statement.expression.ends (.start t)).length ≤ 1 ∧
        ∀ m, m ∈ Statement.expression.ends (.start t) ↔ ∃ s r, Begins t s r ∧ m = Statement.endOf (s, r)) ∧
      ∀ (o : Statement) (a y z : Text), o.WellFormed → o.ending = [] → content = a ++ (o.written ++ y) ++ z →
        (∀ ending rest, y ++ z = ending ++ rest → ¬ Statement.Ends ending rest) →
        (∀ s, (a.length, s) ∉ ss) ∧
        ((∀ m ∈ ss, m.1 + m.2.written.length ≤ a.length ∨ a.length + (o.written ++ y).length ≤ m.1) →
          Stays e a (o.written ++ y) z) := by
  intro e
  have hreading := Statement.reading_pieces 0 content
  refine ⟨Statement.lexeme.spans 0 (Statement.lexeme.pieces content), hreading, ?_, ?_, ?_, ?_, ?_⟩
  · intro ss' h
    exact Statement.reading_iff.1 h
  · have hmap := congrArg (List.map Statement.written)
      (Statement.lexeme.map_snd_spans 0 (Statement.lexeme.pieces content))
    rw [List.map_map] at hmap
    change imports (Ignore.ignores [] false) (Statement.lexeme.pieces content) = _
    rw [imports_eq, List.filter_eq_self.2 fun s _ => by simp, ← hmap]
    rfl
  · intro t s r s' r' h h'
    exact h.unique h'
  · intro t
    rw [Statement.ends_expression]
    constructor
    · cases Statement.read t <;> simp
    · intro m
      simp only [Option.mem_toList, Option.map_eq_some_iff, Prod.exists, Statement.begins_iff]
      exact ⟨fun ⟨s, r, h, hm⟩ => ⟨s, r, h, hm.symm⟩, fun ⟨s, r, h, hm⟩ => ⟨s, r, h, hm.symm⟩⟩
  · intro o a y z ho he hcontent hrefused
    refine ⟨fun s hs => ?_, fun hx => stays_of_apart hcontent hx⟩
    obtain ⟨a', r, hc, hi, hb⟩ := hreading.begins hs
    have hlength : a'.length = a.length := by omega
    have hsame : a' ++ (s.written ++ r) = a ++ (o.written ++ (y ++ z)) := by
      rw [← hc, hcontent]
      simp
    rw [(List.append_inj hsame hlength).2] at hb
    exact Statement.not_begins_of_refused ho he hrefused s r hb

/-- An opener whose string runs into a statement, and a statement with a media query. -/
theorem extract_nested_and_refused :
    let before := "@import 'x @import \"a\"\t;\n".toList
    let refused : Statement := ⟨[' '], '\'', ['b'], []⟩
    let query := " print;".toList
    let content := before ++ (refused.written ++ query) ++ []
    ∃ ss, Reading 0 content ss ∧ ss = [(11, ⟨[' '], '"', ['a'], ['\t', ';']⟩)] ∧
      (∀ ending rest, query ++ [] = ending ++ rest → ¬ Statement.Ends ending rest) ∧
      (∀ s, (before.length, s) ∉ ss) ∧
      Stays (extract (Ignore.ignores [] false) content) before (refused.written ++ query) [] := by
  intro before refused query content
  obtain ⟨ss, hreading, -, -, -, -, hrest⟩ := extract_accepts_grammar content
  have hss : ss = [(11, ⟨[' '], '"', ['a'], ['\t', ';']⟩)] := by
    rw [Statement.reading_iff.1 hreading]
    decide +kernel
  have hrefused : ∀ ending rest, query ++ [] = ending ++ rest → ¬ Statement.Ends ending rest := by
    intro ending rest h he
    have hread := Statement.readEnding_eq_some_iff.2 ⟨h, he⟩
    have hnone : Statement.readEnding (query ++ []) = none := by decide
    exact absurd (hnone.symm.trans hread) (by simp)
  have hwf : refused.WellFormed :=
    ⟨List.forall_mem_singleton.2 (by decide), by decide, List.forall_mem_singleton.2 (by decide)⟩
  obtain ⟨hnot, hstays⟩ := hrest refused before query [] hwf rfl rfl hrefused
  refine ⟨ss, hreading, hss, hrefused, hnot, hstays ?_⟩
  rw [hss]
  decide

end StyleShield.Shield
