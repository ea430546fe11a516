import StyleShield.Proofs.Shield.Restore

/-! Restoring any text at all. A text is woven from the rules that stand in it and from gaps without
rules (`exists_weave_tokens`), so each of its rules is answered, and one without a statement stays and
is reported, whatever script its digits are of. Only the length of a run of digits can stop
restoring: it ends at the first rule with more digits than are read as a number, after the warnings of
the rules before it (`restore_every_text`). -/
namespace StyleShield

namespace Placeholder

open Lexeme

theorem absent_cons {c : Char} {g s : Text} (hread : lexeme.read (c :: s) = none) (hg : g <+: s)
    (ha : Absent g) : Absent (c :: g) := by
  intro p ho
  rcases List.infix_cons_iff.1 ho.2 with hp | hp
  · obtain ⟨r, hr⟩ := hp.trans (List.cons_prefix_cons.2 ⟨rfl, hg⟩)
    have hsome : lexeme.read (c :: s) = some (p, r) := hr ▸ read_written_append ho.1 r
    simp [hread] at hsome
  · exact ha p ⟨ho.1, hp⟩

/-- A text is woven from the rules that stand in it and from gaps without rules. -/
theorem exists_weave_tokens (s : Text) : ∃ gs : List Text, gs.length = (lexeme.tokens s).length + 1 ∧
    (∀ g ∈ gs, Absent g) ∧ s = weave gs ((lexeme.tokens s).map written) := by
  fun_induction pieces lexeme s with
  | case1 =>
    have hnil : lexeme.tokens [] = [] := by simp [tokens_eq]
    refine ⟨[[]], by simp [hnil], fun g hg => ?_, by simp [hnil]⟩
    rw [List.mem_singleton.1 hg]
    exact absent_iff.2 hnil
  | case2 c cs p r h ih =>
    obtain ⟨gs, hlength, habsent, hr⟩ := ih
    have htext : c :: cs = p.written ++ r := lexeme.eq_of_read h
    have hempty : Absent [] := absent_iff.2 (by simp [tokens_eq])
    rw [lexeme.tokens_of_read h]
    refine ⟨[] :: gs, by simp [hlength], List.forall_mem_cons.2 ⟨hempty, habsent⟩, ?_⟩
    rw [htext, List.map_cons, weave_cons_cons, List.nil_append, ← hr]
  | case3 c cs h ih =>
    obtain ⟨gs, hlength, habsent, hcs⟩ := ih
    have htokens : lexeme.tokens (c :: cs) = lexeme.tokens cs := by
      simp [tokens_eq, lexeme.pieces_of_read_none h]
    obtain ⟨g, gs, rfl⟩ := List.exists_cons_of_length_eq_add_one hlength
    rw [List.forall_mem_cons] at habsent
    have hprefix : g <+: cs := by
      have hweave := prefix_weave_cons g gs ((lexeme.tokens cs).map written)
      rwa [← hcs] at hweave
    have hfront := absent_cons h hprefix habsent.1
    have hmove := weave_map_modifyHead id (fun _ _ => rfl) c (List.cons_ne_nil g gs)
      ((lexeme.tokens cs).map written)
    rw [htokens]
    refine ⟨(c :: g) :: gs, hlength, List.forall_mem_cons.2 ⟨hfront, habsent.2⟩, ?_⟩
    simpa [← hcs] using hmove.symm

end Placeholder

namespace Shield

open Lexeme

variable {imports : List Text} {ext : Text} {p : Placeholder}

theorem restorePieces_of_digitLimit_lt {ps : List (Piece Placeholder)} (qs : List (Piece Placeholder))
    (hps : ∀ q ∈ tokensOf ps, q.digits.length ≤ Text.digitLimit) (hp : Text.digitLimit < p.digits.length) :
    restorePieces imports ext (ps ++ .token p :: qs) =
      ⟨warnings imports.length (tokensOf ps), .error (.digitLimit p.digits.length)⟩ := by
  induction ps with
  | nil =>
    rw [List.nil_append, restorePieces, resolve_of_digitLimit_lt hp, Run.fail_bind]
    rfl
  | cons q ps ih =>
    cases q with
    | char c =>
      rw [List.cons_append, restorePieces, ih hps, Run.map_eq]
      rfl
    | token q =>
      rw [tokensOf_token, List.forall_mem_cons] at hps
      have hrest := ih hps.2
      rw [List.cons_append, restorePieces, resolve_eq hps.1, Run.bind_ok rfl, hrest, Run.bind_error rfl,
        tokensOf_token, warnings_cons _ q (tokensOf ps)]

theorem restore_of_digitLimit_lt {s : Text} {before after : List Placeholder}
    (hs : Placeholder.lexeme.tokens s = before ++ p :: after)
    (hbefore : ∀ q ∈ before, q.digits.length ≤ Text.digitLimit) (hp : Text.digitLimit < p.digits.length) :
    restore s imports ext = ⟨warnings imports.length before, .error (.digitLimit p.digits.length)⟩ := by
  obtain ⟨ps, qs, hsplit, hps, hqs⟩ := List.filterMap_eq_append_iff.1 hs
  obtain ⟨cs, q, qs, rfl, hcs, hq, -⟩ := List.filterMap_eq_cons_iff.1 hqs
  cases q with
  | char c => simp at hq
  | token q =>
    obtain rfl : q = p := Option.some.inj hq
    have hchars : tokensOf cs = [] := List.filterMap_eq_nil_iff.2 hcs
    have htokens : tokensOf (ps ++ cs) = before := by
      rw [tokensOf_append, hchars, List.append_nil]
      exact hps
    have hend : restorePieces imports ext (ps ++ cs ++ .token q :: qs) =
        ⟨warnings imports.length before, .error (.digitLimit q.digits.length)⟩ := by
      rw [← htokens] at hbefore ⊢
      exact restorePieces_of_digitLimit_lt qs hbefore hp
    rw [restore, hsplit, ← List.append_assoc, hend]

theorem restore_result_eq_error_iff {s : Text} {e : Fault} : (restore s imports ext).result = .error e ↔
    ∃ before p after, Placeholder.lexeme.tokens s = before ++ p :: after ∧
      (∀ q ∈ before, q.digits.length ≤ Text.digitLimit) ∧ Text.digitLimit < p.digits.length ∧
      e = .digitLimit p.digits.length := by
  constructor
  · intro h
    cases hfind : (Placeholder.lexeme.tokens s).find? fun p => Text.digitLimit < p.digits.length with
    | none =>
      have hshort : ∀ p ∈ Placeholder.lexeme.tokens s, p.digits.length ≤ Text.digitLimit := by
        simpa using List.find?_eq_none.1 hfind
      simp [restore_eq hshort] at h
    | some p =>
      obtain ⟨hp, before, after, htokens, hbefore⟩ := List.find?_eq_some_iff_append.1 hfind
      have hlong : Text.digitLimit < p.digits.length := by simpa using hp
      have hshort : ∀ q ∈ before, q.digits.length ≤ Text.digitLimit := by simpa using hbefore
      rw [restore_of_digitLimit_lt htokens hshort hlong] at h
      exact ⟨before, p, after, htokens, hshort, hlong, (Except.error.inj h).symm⟩
  · rintro ⟨before, p, after, htokens, hbefore, hp, rfl⟩
    rw [restore_of_digitLimit_lt htokens hbefore hp]

/-- Every text is woven from its rules and from gaps without rules. If all rules have digits that can be
read, restoring gives the text with each rule answered, where a rule without a statement stays as
it is and gets one warning; otherwise it ends at the first rule that has too many. -/
theorem restore_every_text (content : Text) (imports : List Text) (ext : Text) :
    ∃ gs ps, gs.length = ps.length + 1 ∧ content = weave gs (ps.map Placeholder.written) ∧
      (∀ g ∈ gs, Placeholder.Absent g) ∧ (∀ p, p ∈ ps ↔ p.OccursIn content) ∧
      (∀ p : Placeholder, imports.length ≤ p.index → answer imports ext p = p.written) ∧
      ((∀ p ∈ ps, p.digits.length ≤ Text.digitLimit) →
        restore content imports ext =
          ⟨(ps.filter fun p => imports.length ≤ p.index).map fun p =>
              .logged ⟨.warning, .importShield, unresolved p imports.length⟩,
            .ok (weave gs (ps.map (answer imports ext)))⟩) ∧
      ∀ before p after, ps = before ++ p :: after → (∀ q ∈ before, q.digits.length ≤ Text.digitLimit) →
        Text.digitLimit < p.digits.length →
          restore content imports ext =
            ⟨warnings imports.length before, .error (.digitLimit p.digits.length)⟩ := by
  obtain ⟨gs, hlength, habsent, hcontent⟩ := Placeholder.exists_weave_tokens content
  have hwell : ∀ p ∈ Placeholder.lexeme.tokens content, p.WellFormed :=
    fun p hp => (Placeholder.mem_tokens_iff.1 hp).1
  refine ⟨gs, Placeholder.lexeme.tokens content, hlength, hcontent, habsent, ?_, ?_, ?_, ?_⟩
  · intro p
    exact Placeholder.mem_tokens_iff
  · intro p hp
    exact answer_of_le hp
  · intro hdigits
    have hfill := Placeholder.fill_pieces_weave_of_absent (answer imports ext) hlength habsent hwell
    rw [← hcontent] at hfill
    rw [restore_eq hdigits, hfill]
    rfl
  · intro before p after hps hbefore hp
    exact restore_of_digitLimit_lt hps hbefore hp

/-- One digit too many. The rule has no statement, and it is neither left as it is nor reported. -/
theorem restore_overlong :
    let p : Placeholder :=
      ⟨List.replicate (Text.digitLimit + 1) '7', [], [], [], [], [], none, by simp⟩
    p.OccursIn p.written ∧ ([] : List Text)[p.index]? = none ∧
      restore p.written [] [] = ⟨[], .error (.digitLimit 4301)⟩ ∧
      ∀ s, (restore p.written [] []).result ≠ .ok s := by
  intro p
  have hlength : p.digits.length = 4301 := List.length_replicate
  have hseven : Text.isDecimalDigit '7' = true := by decide
  have hwell : p.WellFormed :=
    ⟨fun c hc => List.eq_of_mem_replicate hc ▸ hseven, by simp [p, Placeholder.gaps]⟩
  have hone : Placeholder.lexeme.tokens p.written = [p] := by
    have htokens := Placeholder.lexeme.tokens_of_read (Placeholder.read_written_append hwell [])
    simpa [tokens_eq] using htokens
  have hlong : Text.digitLimit < p.digits.length := by
    rw [hlength]
    decide
  have hnone : ∀ q ∈ ([] : List Placeholder), q.digits.length ≤ Text.digitLimit := by simp
  have hend : restore p.written [] [] = ⟨[], .error (.digitLimit p.digits.length)⟩ :=
    restore_of_digitLimit_lt hone hnone hlong
  rw [hlength] at hend
  refine ⟨⟨hwell, List.infix_rfl⟩, rfl, hend, fun s hs => ?_⟩
  simp [hend] at hs

end Shield
end StyleShield
