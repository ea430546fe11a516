import StyleShield.Proofs.Placeholder.Expression
import StyleShield.Proofs.Shield.Limit

/-! No placeholder is hidden from restoring. Matches of the expression for rules share no character, so in a text
woven from gaps without rules and from rules each match is one of these rules (`exists_part_of_occurs`), and
restoring answers each of them in turn and puts the answers in their places (`restore_weave_eq_mapM`). -/
namespace StyleShield

namespace Placeholder

variable {gs : List Text} {ps : List Placeholder} {q : Placeholder} {a r w content : Text}

/-- The text parts into what stands before a match, the match, and the rest. -/
def OccursAt (content a w r : Text) : Prop := content = a ++ w ++ r ∧ Matches w

/-- The parts are those of the rule at an index of a woven text. -/
def IsPart (gs : List Text) (ps : List Placeholder) (i : Nat) (a w r : Text) : Prop :=
  (ps[i]?).map written = some w ∧ a = weave (gs.take (i + 1)) ((ps.take i).map written) ∧
    r = weave (gs.drop (i + 1)) ((ps.drop (i + 1)).map written)

/-- Between gaps without rules there are no rules but those that are woven in. -/
theorem exists_part_of_occurs (h : gs.length = ps.length + 1) (hg : ∀ g ∈ gs, Absent g) (hp : ∀ p ∈ ps, p.WellFormed)
    (hq : q.WellFormed) (ht : weave gs (ps.map written) = a ++ (q.written ++ r)) :
    ∃ i, IsPart gs ps i a q.written r := by
  induction gs, ps, h using weave_induction generalizing a with
  | last g =>
    have hinfix : q.written <:+: g := ⟨a, r, by simpa using ht.symm⟩
    exact absurd ⟨hq, hinfix⟩ (hg g (by simp) q)
  | step g p gs ps h ih =>
    rw [List.forall_mem_cons] at hg hp
    rw [List.map_cons, weave_cons_cons, List.append_assoc] at ht
    rcases Nat.lt_trichotomy g.length a.length with hlt | heq | hgt
    · obtain ⟨x, rfl, hrest⟩ := exists_between hp.1 ht hlt
      obtain ⟨i, hpart, rfl, hafter⟩ := ih hg.2 hp.2 hrest
      exact ⟨i + 1, by simpa using hpart, by simp, by simpa using hafter⟩
    · obtain ⟨rfl, rfl, rfl⟩ := eq_of_same_start hp.1 hq ht heq
      exact ⟨0, by simp, by simp, by simp⟩
    -- A rule that begins in the gap ends in it.
    · obtain ⟨x, rfl, -⟩ := exists_between hq ht.symm hgt
      have hinfix : q.written <:+: a ++ (q.written ++ x) := ⟨a, x, by simp⟩
      exact absurd ⟨hq, hinfix⟩ (hg.1 q)

theorem occursAt_iff (h : gs.length = ps.length + 1) (hg : ∀ g ∈ gs, Absent g) (hp : ∀ p ∈ ps, p.WellFormed) :
    OccursAt (weave gs (ps.map written)) a w r ↔ ∃ i, IsPart gs ps i a w r := by
  constructor
  · rintro ⟨ht, hw⟩
    obtain ⟨q, hq, rfl⟩ := matches_iff.1 hw
    exact exists_part_of_occurs h hg hp hq (ht.trans (List.append_assoc _ _ _))
  · rintro ⟨i, hpart, rfl, rfl⟩
    obtain ⟨p, hi, rfl⟩ := Option.map_eq_some_iff.1 hpart
    obtain ⟨hlt, rfl⟩ := List.getElem?_eq_some_iff.1 hi
    have hlength : gs.length = (ps.map written).length + 1 := by simpa using h
    have hweave := weave_eq_before_after hlength (by simpa using hlt)
    refine ⟨?_, matches_written (hp _ (List.getElem_mem hlt))⟩
    rw [hweave]
    simp

end Placeholder

namespace Shield

open Lexeme
open Placeholder (Matches OccursAt IsPart expression)

variable {imports : List Text} {ext : Text} {gs : List Text} {ps : List Placeholder}

theorem restorePieces_chars (g : Text) (qs : List (Piece Placeholder)) :
    restorePieces imports ext (g.map .char ++ qs) = (g ++ ·) <$> restorePieces imports ext qs := by
  induction g with
  | nil => exact (Run.id_map _).symm
  | cons c g ih =>
    rw [List.map_cons, List.cons_append, restorePieces, ih, Functor.map_map]
    rfl

theorem pieces_of_absent {g : Text} (hg : Placeholder.Absent g) : Placeholder.lexeme.pieces g = g.map .char := by
  have hchars (qs : List (Piece Placeholder)) (h : tokensOf qs = []) :
      qs = (Placeholder.lexeme.render qs).map .char := by
    induction qs with
    | nil => rfl
    | cons q qs ih =>
      cases q with
      | char c => exact congrArg _ (ih h)
      | token p => simp at h
  have h := hchars _ (Placeholder.absent_iff.1 hg)
  rwa [render_pieces] at h

theorem restore_weave_eq_mapM (h : gs.length = ps.length + 1) (hg : ∀ g ∈ gs, Placeholder.Absent g)
    (hp : ∀ p ∈ ps, p.WellFormed) :
    restore (weave gs (ps.map Placeholder.written)) imports ext = weave gs <$> ps.mapM (resolve imports ext) := by
  rw [restore, Placeholder.pieces_weave h hp]
  induction gs, ps, h using weave_induction with
  | last g =>
    have hchars : Placeholder.lexeme.pieces g = g.map .char ++ [] := by
      rw [pieces_of_absent (hg g (by simp)), List.append_nil]
    rw [List.map_singleton, List.map_nil, weave_singleton, hchars, restorePieces_chars, restorePieces, List.mapM_nil,
      map_pure, map_pure, List.append_nil, weave_singleton]
  | step g p gs ps h ih =>
    rw [List.forall_mem_cons] at hg hp
    rw [List.map_cons, List.map_cons, weave_cons_cons, pieces_of_absent hg.1, List.append_assoc, restorePieces_chars,
      List.singleton_append, restorePieces, ih hg.2 hp.2, List.mapM_cons]
    simp only [map_eq_pure_bind, bind_assoc, pure_bind, weave_cons_cons, List.append_assoc]

/-- The expression for rules has at most one end where it is tried. Two of its matches in a text are the same or share
no character, and one that begins before a match at the end of a text ends before it, too. So the matches in a text are
rules between gaps, and restoring answers every one of them from left to right: the text it gives has the answers in
their places, unless the digits of a rule are too many to be read, where it ends. The rule of a number is matched as a
whole with that number as its index, and it does not hold the rule of another number. -/
theorem restore_every_occurrence (content : Text) (imports : List Text) (ext : Text) :
    (∀ s, ∀ e ∈ expression.ends (.start s), ∀ e' ∈ expression.ends (.start s), e = e') ∧
    (∀ a w r b v u, OccursAt content a w r → OccursAt content b v u →
      (a = b ∧ w = v) ∨ (a ++ w).length ≤ b.length ∨ (b ++ v).length ≤ a.length) ∧
    (∀ a w b s, Matches w → a ++ w = b ++ s → b.length < a.length → ∀ e ∈ expression.ends (.start s), w <:+ e.rest) ∧
    (∃ gs ps, gs.length = ps.length + 1 ∧ content = weave gs (ps.map Placeholder.written) ∧
      (∀ a w r, OccursAt content a w r ↔ ∃ i, IsPart gs ps i a w r) ∧
      (∀ p ∈ ps, Placeholder.endOf (p, []) ∈ expression.ends (.start p.written)) ∧
      restore content imports ext = weave gs <$> ps.mapM (resolve imports ext) ∧
      ((∀ p ∈ ps, p.digits.length ≤ Text.digitLimit) → restore content imports ext =
        ⟨warnings imports.length ps, .ok (weave gs (ps.map (answer imports ext)))⟩)) ∧
    (∀ n : Nat, (Text.ofNat n).length ≤ Text.digitLimit →
      ∃ e ∈ expression.ends (.start (Placeholder.tight n)), e.rest = [] ∧ ∃ digits,
        e.group? Placeholder.indexGroup = some digits ∧ digits.length ≤ Text.digitLimit ∧ Text.readDecimal digits = n) ∧
    ∀ m n : Nat, Placeholder.tight m <:+: Placeholder.tight n ↔ m = n := by
  refine ⟨?_, ?_, ?_, ?_, ?_, ?_⟩
  · intro s e he e' he'
    exact Placeholder.ends_expression_unique he he'
  · intro a w r b v u hw hv
    exact hw.2.eq_or_apart hv.2 (hw.1.symm.trans hv.1)
  · intro a w b s hw h hlt e he
    exact hw.suffix_rest h hlt he
  · obtain ⟨gs, hlength, habsent, hcontent⟩ := Placeholder.exists_weave_tokens content
    have hwell : ∀ p ∈ Placeholder.lexeme.tokens content, p.WellFormed :=
      fun p hp => (Placeholder.mem_tokens_iff.1 hp).1
    refine ⟨gs, Placeholder.lexeme.tokens content, hlength, hcontent, ?_, ?_, ?_, ?_⟩
    · intro a w r
      have hiff := Placeholder.occursAt_iff (a := a) (w := w) (r := r) hlength habsent hwell
      rwa [← hcontent] at hiff
    · intro p hp
      have hend := Placeholder.mem_ends_written (hwell p hp) []
      rwa [List.append_nil] at hend
    · conv_lhs => rw [hcontent]
      exact restore_weave_eq_mapM hlength habsent hwell
    · intro hdigits
      have hrestore := restore_weave imports ext hlength habsent fun p hp => ⟨hwell p hp, hdigits p hp⟩
      rwa [← hcontent] at hrestore
  · intro n hn
    exact ⟨_, Placeholder.endOf_mem_ends_tight n, rfl, Text.ofNat n, rfl, hn, Text.readDecimal_ofNat n⟩
  · intro m n
    exact Placeholder.tight_infix_tight_iff

end Shield
end StyleShield
