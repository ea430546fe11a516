import StyleShield.Proofs.Statement
import StyleShield.Proofs.Text.Spans

/-! The greedy reading of a stylesheet, as a relation. A text begins with at most one statement
(`Begins.unique`); where it begins with one, the reading takes it and goes on behind it, and where it
does not, it goes on one character later. So there is one reading of each text, and its statements are
the pieces that are read (`reading_iff`). -/
namespace StyleShield.Statement

open Lexeme

/-- A text begins with a statement: what the grammar asks of the statement and of what follows it. -/
structure Begins (t : Text) (s : Statement) (rest : Text) : Prop where
  wellFormed : s.WellFormed
  ends : Ends s.ending rest
  text : t = s.written ++ rest

/-- The statements of a text that begins at a position, each with its own position. -/
inductive Reading : Nat → Text → List (Nat × Statement) → Prop
  | nil (n : Nat) : Reading n [] []
  | hit {n : Nat} {t rest : Text} {s : Statement} {ss : List (Nat × Statement)} (begins : Begins t s rest)
      (later : Reading (n + s.written.length) rest ss) : Reading n t ((n, s) :: ss)
  | skip {n : Nat} {c : Char} {t : Text} {ss : List (Nat × Statement)} (begins : ∀ s rest, ¬ Begins (c :: t) s rest)
      (later : Reading (n + 1) t ss) : Reading n (c :: t) ss

variable {n : Nat} {t r r' : Text} {s s' : Statement} {ss : List (Nat × Statement)}

theorem begins_iff : Begins t s r ↔ read t = some (s, r) :=
  ⟨fun h => h.text ▸ read_written_append h.wellFormed h.ends,
    fun h => ⟨(wellFormed_of_read h).1, (wellFormed_of_read h).2, eq_of_read h⟩⟩

theorem Begins.unique (h : Begins t s r) (h' : Begins t s' r') : s = s' ∧ r = r' := by
  have hread := (begins_iff.1 h).symm.trans (begins_iff.1 h')
  exact Prod.mk.inj (Option.some.inj hread)

theorem reading_pieces (n : Nat) (t : Text) : Reading n t (lexeme.spans n (lexeme.pieces t)) := by
  fun_induction pieces lexeme t generalizing n with
  | case1 => exact .nil n
  | case2 c cs s r h ih => exact .hit (begins_iff.2 h) (ih _)
  | case3 c cs h ih =>
    refine .skip (fun s rest hb => ?_) (ih _)
    have hread := begins_iff.1 hb
    rw [lexeme_read] at h
    simp [h] at hread

theorem reading_iff : Reading n t ss ↔ ss = lexeme.spans n (lexeme.pieces t) := by
  refine ⟨fun h => ?_, fun h => h ▸ reading_pieces n t⟩
  induction h with
  | nil n => simp
  | hit begins later ih =>
    have hread : lexeme.read _ = some _ := begins_iff.1 begins
    rw [lexeme.pieces_of_read hread, spans_token, ih]
    rfl
  | @skip n c t ss begins later ih =>
    have hread : lexeme.read (c :: t) = none := by
      rw [lexeme_read]
      cases h : read (c :: t) with
      | none => rfl
      | some m => exact absurd (begins_iff.2 h) (begins m.1 m.2)
    rw [lexeme.pieces_of_read_none hread, spans_char, ih]

theorem Reading.begins (h : Reading n t ss) {i : Nat} (hs : (i, s) ∈ ss) :
    ∃ a r, t = a ++ (s.written ++ r) ∧ i = n + a.length ∧ Begins (s.written ++ r) s r := by
  induction h with
  | nil n => simp at hs
  | @hit n t rest s' ss begins later ih =>
    rcases List.mem_cons.1 hs with he | hs
    · obtain ⟨rfl, rfl⟩ := Prod.mk.inj he
      exact ⟨[], rest, begins.text, rfl, begins.text ▸ begins⟩
    · obtain ⟨a, r, rfl, hi, hb⟩ := ih hs
      refine ⟨s'.written ++ a, r, by rw [begins.text, List.append_assoc], ?_, hb⟩
      rw [hi, List.length_append]
      omega
  | @skip n c t ss begins later ih =>
    obtain ⟨a, r, rfl, hi, hb⟩ := ih hs
    refine ⟨c :: a, r, rfl, ?_, hb⟩
    rw [hi, List.length_cons]
    omega

theorem not_begins_of_refused {o : Statement} (ho : o.WellFormed) (he : o.ending = []) {u : Text}
    (hu : ∀ e r, u = e ++ r → ¬ Ends e r) (s : Statement) (r : Text) : ¬ Begins (o.written ++ u) s r := by
  intro hb
  have hread := begins_iff.1 hb
  rw [read_opened ho he] at hread
  obtain ⟨m, hm, -⟩ := Option.map_eq_some_iff.1 hread
  obtain ⟨htext, hends⟩ := readEnding_eq_some_iff.1 hm
  exact hu m.1 m.2 htext hends

end StyleShield.Statement
