import StyleShield.Proofs.Alike
import StyleShield.Proofs.Shield.Reading

/-! Extraction done again. What it puts in begins with a letter that no opener holds and has no quotes,
so the text around is read as before, but for one thing: a string that was opened in a gap and ran
into a quote of a statement behind it can run through the placeholder that stands there now, and close
in a later gap. Up to the first statement that crosses a placeholder the second reading finds ignored
statements of the text and nothing else (`exists_tokens_mask`), so that only from there on something
can be left to take out (`extract_again`). -/
namespace StyleShield

namespace Placeholder

theorem notMem_tight (n : Nat) {c : Char} (hd : Text.isDecimalDigit c = false) (hb : Text.isBlank c = false)
    (hc : c ∉ stem ++ display ++ block ++ ['{', ':', ';', '}']) : c ∉ tight n := by
  rw [← written_ofIndex]
  exact notMem_written (wellFormed_ofIndex n) hd hb hc

theorem at_notMem_tight (n : Nat) : '@' ∉ tight n := notMem_tight n (by decide) (by decide) (by decide)

theorem not_isQuote_of_mem_tight (n : Nat) : ∀ c ∈ tight n, Statement.isQuote c = false := by
  intro c hc
  by_contra hq
  rcases Statement.isQuote_iff.1 (by simpa using hq) with rfl | rfl
  · exact notMem_tight n (by decide) (by decide) (by decide) hc
  · exact notMem_tight n (by decide) (by decide) (by decide) hc

end Placeholder

namespace Statement

open Lexeme

variable {s : Statement} {e w u v : Text} {d : Char}

theorem read_eq_none_of_ne {c : Char} (hc : c ≠ '@') (t : Text) : read (c :: t) = none := by
  simp [read, keyword, Text.after?, Ne.symm hc]

theorem tokens_append_of_notMem (hw : '@' ∉ w) (t : Text) : lexeme.tokens (w ++ t) = lexeme.tokens t := by
  induction w with
  | nil => rfl
  | cons c w ih =>
    rw [List.mem_cons, not_or] at hw
    have hread : lexeme.read (c :: (w ++ t)) = none := read_eq_none_of_ne (Ne.symm hw.1) (w ++ t)
    rw [List.cons_append, tokens_eq, lexeme.pieces_of_read_none hread, tokensOf_char, ← tokens_eq, ih hw.2]

theorem atLineEnd_of_append_cons (hd : Text.isBlank d = false) (h : atLineEnd (w ++ d :: u) = true) (v : Text) :
    atLineEnd (w ++ v) = true := by
  have hn : d ≠ '\n' := by rintro rfl; exact absurd hd (by decide)
  have hr : d ≠ '\r' := by rintro rfl; exact absurd hd (by decide)
  unfold atLineEnd at h
  split at h
  · rename_i hw
    simp at hw
  · rename_i t hw
    cases w with
    | nil => exact absurd (List.cons.inj hw).1 hn
    | cons x w =>
      obtain rfl : x = '\n' := (List.cons.inj hw).1
      rfl
  · rename_i t hw
    cases w with
    | nil => exact absurd (List.cons.inj hw).1 hr
    | cons x w =>
      obtain ⟨rfl, hw'⟩ := List.cons.inj hw
      cases w with
      | nil => exact absurd (List.cons.inj hw').1 hn
      | cons y w =>
        obtain rfl : y = '\n' := (List.cons.inj hw').1
        rfl
  · simp at h

theorem AtLineEnd.of_append_cons (hd : Text.isBlank d = false) (h : AtLineEnd (w ++ d :: u)) (v : Text) :
    AtLineEnd (w ++ v) := by
  obtain ⟨g, r, hg, hw, hr⟩ := h
  rcases List.append_eq_append_iff.1 hw with ⟨a, ha, hd'⟩ | ⟨a, rfl, rfl⟩
  · cases a with
    | nil =>
      rw [List.nil_append] at hd'
      rw [← hd'] at hr
      have hnil := atLineEnd_of_append_cons (w := []) hd hr v
      exact ⟨w, v, by simpa [ha] using hg, rfl, hnil⟩
    | cons x a =>
      obtain ⟨rfl, -⟩ := List.cons.inj hd'
      have hx := hg d (by simp [ha])
      rcases (by simpa [Text.isInlineBlank] using hx : d = ' ' ∨ d = '\t') with rfl | rfl
      · exact absurd hd (by decide)
      · exact absurd hd (by decide)
  · exact ⟨g, a ++ v, hg, List.append_assoc g a v, atLineEnd_of_append_cons hd hr v⟩

/-- Whether a statement may end before a gap is seen in the gap, if something other than a blank follows it. -/
theorem Ends.of_append_cons (hd : Text.isBlank d = false) (h : Ends e (w ++ d :: u)) (v : Text) : Ends e (w ++ v) := by
  rcases h with h | ⟨he, hline⟩
  · exact .inl h
  · exact .inr ⟨he, hline.of_append_cons hd v⟩

theorem letter_notMem_opening (h : s.WellFormed) : 'c' ∉ s.opening := by
  have hg : 'c' ∉ s.gap := fun hm => absurd (h.gap 'c' hm) (by decide)
  have hq : 'c' ≠ s.quote := fun he => absurd (he ▸ h.quote) (by decide)
  simp [opening, keyword, hg, hq]

theorem letter_notMem_ending {r : Text} (h : Ends e r) : 'c' ∉ e := by
  rcases h with ⟨g, hg, rfl⟩ | ⟨rfl, -⟩
  · have hblank : 'c' ∉ g := fun hm => absurd (hg 'c' hm) (by decide)
    simp [hblank]
  · simp

end Statement

section Weave

variable {gs ts : List Text} {y z : Text} {q : Char}

theorem weave_append_cons (o x : Text) (gs ts : List Text) :
    weave ((o ++ x) :: gs) ts = o ++ weave (x :: gs) ts := by
  cases ts <;> simp [weave]

theorem exists_first_quote (g : Text) : (∀ c ∈ g, Statement.isQuote c = false) ∨
    ∃ a q b, g = a ++ q :: b ∧ (∀ c ∈ a, Statement.isQuote c = false) ∧ Statement.isQuote q = true := by
  induction g with
  | nil => simp
  | cons c g ih =>
    by_cases hc : Statement.isQuote c = true
    · exact .inr ⟨[], c, g, rfl, by simp, hc⟩
    · rw [Bool.not_eq_true] at hc
      rcases ih with hg | ⟨a, q, b, rfl, ha, hq⟩
      · exact .inl (List.forall_mem_cons.2 ⟨hc, hg⟩)
      · exact .inr ⟨c :: a, q, b, rfl, List.forall_mem_cons.2 ⟨hc, ha⟩, hq⟩

theorem eq_append_of_quote {u v : Text} (hu : ∀ c ∈ u, Statement.isQuote c = false) (hq : Statement.isQuote q = true)
    (h : u ++ v = y ++ q :: z) : ∃ y', y = u ++ y' ∧ v = y' ++ q :: z := by
  rcases List.append_eq_append_iff.1 h with ⟨a, hy, hv⟩ | ⟨b, hb, hz⟩
  · exact ⟨a, hy, hv⟩
  · cases b with
    | nil => exact ⟨[], by simpa using hb.symm, hz.symm⟩
    | cons d b =>
      obtain ⟨rfl, -⟩ := List.cons.inj hz
      have hd := hu q (by simp [hb])
      simp [hd] at hq

/-- The first quote of a text that is woven with parts without quotes stands in a gap. -/
theorem exists_gap_of_quote (h : gs.length = ts.length + 1) (hts : ∀ t ∈ ts, ∀ c ∈ t, Statement.isQuote c = false)
    (hy : ∀ c ∈ y, Statement.isQuote c = false) (hq : Statement.isQuote q = true) (hw : weave gs ts = y ++ q :: z) :
    ∃ between a b after, gs = between ++ (a ++ q :: b) :: after ∧
      y = weave (between ++ [a]) (ts.take between.length) ∧ z = weave (b :: after) (ts.drop between.length) := by
  induction gs, ts, h using weave_induction generalizing y with
  | last g =>
    rw [weave_singleton] at hw
    exact ⟨[], y, z, [], by rw [hw]; rfl, by simp, by simp⟩
  | step g t gs ts _ ih =>
    rw [List.forall_mem_cons] at hts
    rw [weave_cons_cons] at hw
    rcases exists_first_quote g with hg | ⟨a, q', b, rfl, ha, hq'⟩
    · have hfront : ∀ c ∈ g ++ t, Statement.isQuote c = false := List.forall_mem_append.2 ⟨hg, hts.1⟩
      obtain ⟨y', rfl, hrest⟩ := eq_append_of_quote hfront hq hw
      obtain ⟨between, a, b, after, hgs, hy', hz⟩ := ih hts.2 (fun c hc => hy c (by simp [hc])) hrest
      exact ⟨g :: between, a, b, after, by rw [hgs]; rfl, by simp [hy'], by simp [hz]⟩
    · have hfirst : a ++ q' :: (b ++ t ++ weave gs ts) = y ++ q :: z := by simpa using hw
      obtain ⟨rfl, rfl, rfl⟩ := Statement.eq_of_append_quote ha hy hq' hq hfirst
      exact ⟨[], a, b, gs, rfl, by simp, by simp⟩

theorem exists_eq_append_of_notMem {g o r : Text} {d : Char} (h : (g :: gs).length = ts.length + 1)
    (hts : ∀ t ∈ ts, ∃ v, t = d :: v) (hd : d ∉ o) (hw : weave (g :: gs) ts = o ++ r) : ∃ x, g = o ++ x := by
  cases ts with
  | nil =>
    obtain rfl : gs = [] := by simpa using h
    exact ⟨r, by simpa using hw⟩
  | cons t ts =>
    obtain ⟨v, rfl⟩ := hts t List.mem_cons_self
    have hjoined : g ++ d :: (v ++ weave gs ts) = o ++ r := by simpa using hw
    rcases List.append_eq_append_iff.1 hjoined with ⟨a, rfl, hr⟩ | ⟨b, rfl, -⟩
    · cases a with
      | nil => exact ⟨[], by simp⟩
      | cons x a =>
        obtain ⟨rfl, -⟩ := List.cons.inj hr
        simp at hd
    · exact ⟨b, rfl⟩

end Weave

namespace Shield

open Lexeme

variable {ignored : Text → Bool} {s : Statement} {n : Nat} {gs : List Text}

/-- The statement opens in one gap and closes in a later one, with the placeholders from number `n` on between
the gaps, so that some of them stand in its path. -/
def Crosses (n : Nat) (gs : List Text) (s : Statement) : Prop :=
  ∃ before a x between y z after,
    gs = before ++ (a ++ s.opening ++ x) :: (between ++ (y ++ s.quote :: s.ending ++ z) :: after) ∧
    s.path = weave (x :: between ++ [y]) (tights (n + before.length) (between.length + 1))

theorem Crosses.modifyHead (h : Crosses n gs s) (w : Text) : Crosses n (gs.modifyHead (w ++ ·)) s := by
  obtain ⟨before, a, x, between, y, z, after, rfl, hpath⟩ := h
  cases before with
  | nil => exact ⟨[], w ++ a, x, between, y, z, after, by simp, hpath⟩
  | cons g before => exact ⟨(w ++ g) :: before, a, x, between, y, z, after, rfl, hpath⟩

theorem Crosses.cons (h : Crosses (n + 1) gs s) (g : Text) : Crosses n (g :: gs) s := by
  obtain ⟨before, a, x, between, y, z, after, rfl, hpath⟩ := h
  have hnumber : n + (g :: before).length = n + 1 + before.length := by
    rw [List.length_cons]
    omega
  exact ⟨g :: before, a, x, between, y, z, after, rfl, hnumber ▸ hpath⟩

def gapsOf (ignored : Text → Bool) (ps : List (Piece Statement)) : List Text :=
  (ps.splitOnP (isTaken ignored)).map Statement.lexeme.render

theorem gapsOf_cons_taken (hs : ignored s.path = false) (ps : List (Piece Statement)) :
    gapsOf ignored (.token s :: ps) = [] :: gapsOf ignored ps := by
  simp [gapsOf, List.splitOnP_cons_eq_if_modifyHead, isTaken, hs]

theorem gapsOf_cons {p : Piece Statement} (hp : isTaken ignored p = false) (ps : List (Piece Statement)) :
    gapsOf ignored (p :: ps) = (gapsOf ignored ps).modifyHead (Statement.lexeme.renderPiece p ++ ·) := by
  obtain ⟨row, rows, hrows⟩ := List.exists_cons_of_ne_nil (List.splitOnP_ne_nil (isTaken ignored) ps)
  simp [gapsOf, List.splitOnP_cons_eq_if_modifyHead, hp, hrows]

theorem length_gapsOf (ignored : Text → Bool) (ps : List (Piece Statement)) :
    (gapsOf ignored ps).length = (imports ignored ps).length + 1 := by
  rw [gapsOf, List.length_map, length_splitOnP, filter_isTaken, imports_eq, List.length_map, List.length_map]

theorem mask_eq_weave_gapsOf (n : Nat) (ps : List (Piece Statement)) :
    mask ignored n ps = weave (gapsOf ignored ps) (tights n (imports ignored ps).length) := mask_eq_weave ignored n ps

theorem render_eq_weave_gapsOf (ignored : Text → Bool) (ps : List (Piece Statement)) :
    Statement.lexeme.render ps = weave (gapsOf ignored ps) (imports ignored ps) := render_eq_weave ps

theorem exists_cons_of_mem_tights {count : Nat} {t : Text} (h : t ∈ tights n count) : ∃ v, t = 'c' :: v := by
  obtain ⟨i, -, rfl⟩ := List.mem_map.1 h
  exact ⟨_, rfl⟩

theorem exists_cons_of_mem_imports {ps : List (Piece Statement)} {t : Text} (h : t ∈ imports ignored ps) :
    ∃ v, t = '@' :: v := by
  rw [imports_eq] at h
  obtain ⟨s, -, rfl⟩ := List.mem_map.1 h
  exact ⟨_, rfl⟩

/-- A statement may end in front of a gap whatever parts are woven behind the gap, as long as they begin with
something other than a blank. -/
theorem ends_weave {e g : Text} {ts ts' : List Text} {d : Char} (hd : Text.isBlank d = false)
    (hlength : ts'.length = ts.length) (hts : ∀ t ∈ ts, ∃ v, t = d :: v) (h : (g :: gs).length = ts.length + 1)
    (he : Statement.Ends e (weave (g :: gs) ts)) : Statement.Ends e (weave (g :: gs) ts') := by
  cases ts with
  | nil =>
    obtain rfl : ts' = [] := by simpa using hlength
    exact he
  | cons t ts =>
    obtain ⟨t', ts', rfl⟩ := List.exists_cons_of_length_eq_add_one hlength
    obtain ⟨v, rfl⟩ := hts t List.mem_cons_self
    have hfront : Statement.Ends e (g ++ d :: (v ++ weave gs ts)) := by simpa using he
    rw [weave_cons_cons, List.append_assoc]
    exact hfront.of_append_cons hd (t' ++ weave gs ts')

theorem ends_mask_iff {e : Text} (n : Nat) (ps : List (Piece Statement)) :
    Statement.Ends e (mask ignored n ps) ↔ Statement.Ends e (Statement.lexeme.render ps) := by
  have hlength := length_gapsOf ignored ps
  have htights : (tights n (imports ignored ps).length).length = (imports ignored ps).length := by simp [tights]
  rw [mask_eq_weave_gapsOf, render_eq_weave_gapsOf ignored]
  obtain ⟨g, gs, hgs⟩ := List.exists_cons_of_length_eq_add_one hlength
  rw [hgs] at hlength ⊢
  constructor
  · intro h
    exact ends_weave (by decide) htights.symm (fun t => exists_cons_of_mem_tights) (by rw [hlength, htights]) h
  · intro h
    exact ends_weave (by decide) htights (fun t => exists_cons_of_mem_imports) hlength h

@[simp] theorem length_tights (first count : Nat) : (tights first count).length = count := by simp [tights]

theorem take_tights {count i : Nat} (hi : i ≤ count) : (tights n count).take i = tights n i := by
  rw [tights, ← List.map_take, List.take_range'_of_length_ge hi, tights]

theorem not_isQuote_of_mem_tights {count : Nat} {t : Text} (h : t ∈ tights n count) :
    ∀ c ∈ t, Statement.isQuote c = false := by
  obtain ⟨i, -, rfl⟩ := List.mem_map.1 h
  exact Placeholder.not_isQuote_of_mem_tight i

/-- A statement that a shielded text begins with lies in the first gap or crosses a placeholder. -/
theorem lies_or_crosses {g r : Text} (hwell : s.WellFormed) (hends : Statement.Ends s.ending r)
    (h : weave (g :: gs) (tights n gs.length) = s.written ++ r) :
    (∃ z, g = s.written ++ z ∧ r = weave (z :: gs) (tights n gs.length)) ∨ Crosses n (g :: gs) s := by
  have hcons : ∀ t ∈ tights n gs.length, ∃ v, t = 'c' :: v := fun t => exists_cons_of_mem_tights
  -- No opening holds the letter that placeholders begin with.
  rw [Statement.written_append] at h
  obtain ⟨x, rfl⟩ := exists_eq_append_of_notMem (by simp) hcons (Statement.letter_notMem_opening hwell) h
  rw [weave_append_cons] at h
  have hstring : weave (x :: gs) (tights n gs.length) = s.path ++ s.quote :: (s.ending ++ r) :=
    List.append_cancel_left h
  obtain ⟨between, y, b, after, hgaps, hpath, hclosed⟩ :=
    exists_gap_of_quote (by simp) (fun t => not_isQuote_of_mem_tights) hwell.path hwell.quote hstring
  -- Nor does any ending.
  have hbehind : (b :: after).length = ((tights n gs.length).drop between.length).length + 1 := by
    have hsum := congrArg List.length hgaps
    simp only [List.length_cons, List.length_append, List.length_drop, length_tights] at hsum ⊢
    omega
  obtain ⟨z, rfl⟩ := exists_eq_append_of_notMem hbehind (fun t ht => hcons t (List.mem_of_mem_drop ht))
    (Statement.letter_notMem_ending hends) hclosed.symm
  rw [weave_append_cons] at hclosed
  cases between with
  | nil =>
    obtain ⟨rfl, rfl⟩ := List.cons.inj hgaps
    have hy : s.path = y := by simpa using hpath
    refine .inl ⟨z, ?_, List.append_cancel_left hclosed⟩
    rw [Statement.written_append, hy]
  | cons x' between =>
    obtain ⟨rfl, hafter⟩ := List.cons.inj hgaps
    have hle : (x :: between).length ≤ gs.length := by
      have hsum := congrArg List.length hafter
      change gs.length = (between ++ _).length at hsum
      simp only [List.length_cons, List.length_append] at hsum ⊢
      omega
    rw [take_tights hle] at hpath
    refine .inr ⟨[], [], x, between, y, z, after, ?_, hpath⟩
    simp [hafter]

theorem crosses_of_read {c : Char} {ps : List (Piece Statement)} {r : Text}
    (hnone : Statement.read (c :: Statement.lexeme.render ps) = none)
    (hsome : Statement.read (c :: mask ignored n ps) = some (s, r)) :
    Crosses n ((gapsOf ignored ps).modifyHead ([c] ++ ·)) s := by
  obtain ⟨hwell, hends, htext⟩ := Statement.read_eq_some_iff.1 hsome
  obtain ⟨g, gs, hgs⟩ := List.exists_cons_of_length_eq_add_one (length_gapsOf ignored ps)
  have hcount : (imports ignored ps).length = gs.length := by
    have hlength := length_gapsOf ignored ps
    simpa [hgs, eq_comm] using hlength
  have hmask : c :: mask ignored n ps = weave (([c] ++ g) :: gs) (tights n gs.length) := by
    rw [mask_eq_weave_gapsOf, hgs, hcount, weave_append_cons]
    rfl
  have hrender : c :: Statement.lexeme.render ps = weave (([c] ++ g) :: gs) (imports ignored ps) := by
    rw [render_eq_weave_gapsOf ignored, hgs, weave_append_cons]
    rfl
  rw [hgs, List.modifyHead_cons]
  rw [hmask] at htext
  rcases lies_or_crosses hwell hends htext with ⟨z, hz, rfl⟩ | hcrosses
  · -- What lies in the gap was there before.
    have hbefore : Statement.Ends s.ending (weave (z :: gs) (imports ignored ps)) :=
      ends_weave (by decide) (by simp [hcount]) (fun t => exists_cons_of_mem_tights) (by simp) hends
    rw [hrender, hz, weave_append_cons, Statement.read_written_append hwell hbefore] at hnone
    simp at hnone
  · exact hcrosses

/-- Of the statements of a shielded text, those before the first one that crosses a placeholder are ignored
statements of the text, in order. -/
theorem exists_tokens_mask (ignored : Text → Bool) (n : Nat) (content : Text) :
    ∃ old later, Statement.lexeme.tokens (mask ignored n (Statement.lexeme.pieces content)) = old ++ later ∧
      old <+: ((Statement.lexeme.tokens content).filter fun s => ignored s.path) ∧
      ∀ s ∈ later.head?, Crosses n (gaps ignored content) s := by
  have hgaps (t : Text) : gaps ignored t = gapsOf ignored (Statement.lexeme.pieces t) := rfl
  fun_induction pieces Statement.lexeme content generalizing n with
  | case1 => exact ⟨[], [], by simp [mask, tokens_eq], by simp, by simp⟩
  | case2 c cs s r h ih =>
    have hpieces := Statement.lexeme.pieces_of_read h
    obtain ⟨hwell, hends, -⟩ := Statement.read_eq_some_iff.1 h
    rw [hgaps, hpieces, Statement.lexeme.tokens_of_read h]
    by_cases hs : ignored s.path = true
    · obtain ⟨old, later, htokens, hold, hlater⟩ := ih n
      have hread : Statement.lexeme.read (s.written ++ mask ignored n (Statement.lexeme.pieces r)) =
          some (s, mask ignored n (Statement.lexeme.pieces r)) := by
        refine Statement.read_written_append hwell ((ends_mask_iff n _).2 ?_)
        rwa [render_pieces]
      refine ⟨s :: old, later, ?_, ?_, fun s' hs' => ?_⟩
      · rw [mask, if_pos hs, Statement.lexeme.tokens_of_read hread, htokens]
        rfl
      · rw [List.filter_cons, if_pos hs]
        exact List.cons_prefix_cons.2 ⟨rfl, hold⟩
      · rw [gapsOf_cons (by simp [isTaken, hs])]
        exact (hlater s' hs').modifyHead s.written
    · obtain ⟨old, later, htokens, hold, hlater⟩ := ih (n + 1)
      refine ⟨old, later, ?_, ?_, fun s' hs' => ?_⟩
      · rw [mask, if_neg hs, Statement.tokens_append_of_notMem (Placeholder.at_notMem_tight n), htokens]
      · rw [List.filter_cons, if_neg hs]
        exact hold
      · rw [gapsOf_cons_taken (by simpa using hs)]
        exact (hlater s' hs').cons []
  -- No statement begins here in the text, but one may begin here once a placeholder goes on with it.
  | case3 c cs h ih =>
    have hpieces := Statement.lexeme.pieces_of_read_none h
    have htokens : Statement.lexeme.tokens (c :: cs) = Statement.lexeme.tokens cs := by
      rw [tokens_eq, hpieces, tokensOf_char, tokens_eq]
    rw [hgaps, hpieces, htokens, gapsOf_cons rfl, mask]
    cases hread : Statement.read (c :: mask ignored n (Statement.lexeme.pieces cs)) with
    | none =>
      obtain ⟨old, later, hsplit, hold, hlater⟩ := ih n
      refine ⟨old, later, ?_, hold, fun s' hs' => (hlater s' hs').modifyHead [c]⟩
      rw [tokens_eq, Statement.lexeme.pieces_of_read_none hread, tokensOf_char, ← tokens_eq, hsplit]
    | some m =>
      have hnone : Statement.read (c :: Statement.lexeme.render (Statement.lexeme.pieces cs)) = none := by
        rwa [render_pieces]
      have hfirst := Statement.lexeme.tokens_of_read hread
      refine ⟨[], m.1 :: Statement.lexeme.tokens m.2, hfirst, List.nil_prefix, fun s' hs' => ?_⟩
      obtain rfl : m.1 = s' := Option.mem_some.1 hs'
      exact crosses_of_read hnone hread

theorem extract_eq_self_iff (ignored : Text → Bool) (content : Text) :
    extract ignored content = ⟨content, []⟩ ↔ ∀ s ∈ Statement.lexeme.tokens content, ignored s.path = true := by
  have himports := imports_extract ignored content
  have hweave := weave_gaps ignored content
  have hnone : taken ignored content = [] ↔ ∀ s ∈ Statement.lexeme.tokens content, ignored s.path = true := by
    simp [taken]
  rw [← hnone]
  constructor
  · intro h
    rw [h] at himports
    exact List.map_eq_nil_iff.1 himports.symm
  · intro h
    rw [h] at hweave
    rw [extract_eq, h]
    exact congrArg (Shielded.mk · []) hweave

/-- The gap ends in an opener whose string does not close in it. -/
def LeavesOpen (g : Text) : Prop :=
  ∃ a o x, g = a ++ Statement.opening o ++ x ∧ Statement.WellFormed o ∧ ∀ c ∈ x, Statement.isQuote c = false

theorem Crosses.leavesOpen (h : Crosses n gs s) (hs : s.WellFormed) : ∃ g ∈ gs.dropLast, LeavesOpen g := by
  obtain ⟨before, a, x, between, y, z, after, rfl, hpath⟩ := h
  have hx : ∀ c ∈ x, Statement.isQuote c = false := by
    have hfront : x <+: s.path := hpath ▸ prefix_weave_cons x _ _
    exact fun c hc => hs.path c (hfront.subset hc)
  refine ⟨a ++ s.opening ++ x, ?_, a, s, x, rfl, hs, hx⟩
  rw [List.dropLast_append_of_ne_nil (List.cons_ne_nil _ _), List.dropLast_cons_of_ne_nil (by simp)]
  exact List.mem_append_right before List.mem_cons_self

/-- What a second extraction finds. Up to the first statement that crosses a placeholder it reads ignored
statements of the text, and it takes something out only if a statement from there on is not ignored.
Where no gap but the last one leaves a string open, nothing crosses and nothing is taken out. -/
theorem extract_again (ms : List Matcher) (packages : Bool) (content : Text) :
    let ignored := Ignore.ignores ms packages
    let e := extract ignored content
    ∃ old later, Statement.lexeme.tokens e.text = old ++ later ∧
      old <+: ((Statement.lexeme.tokens content).filter fun s => ignored s.path) ∧
      (∀ s ∈ later.head?, Crosses 0 (gaps ignored content) s) ∧
      (extract ignored e.text = ⟨e.text, []⟩ ↔ ∀ s ∈ later, ignored s.path = true) ∧
      ((∀ g ∈ (gaps ignored content).dropLast, ¬ LeavesOpen g) → extract ignored e.text = ⟨e.text, []⟩) := by
  intro ignored e
  obtain ⟨old, later, htokens, hold, hlater⟩ := exists_tokens_mask ignored 0 content
  have hsplit : Statement.lexeme.tokens e.text = old ++ later := htokens
  have hignored : ∀ s ∈ old, ignored s.path = true := fun s hs => (List.mem_filter.1 (hold.subset hs)).2
  have hiff : extract ignored e.text = ⟨e.text, []⟩ ↔ ∀ s ∈ later, ignored s.path = true := by
    rw [extract_eq_self_iff, hsplit, List.forall_mem_append]
    exact and_iff_right hignored
  refine ⟨old, later, hsplit, hold, hlater, hiff, fun hopen => hiff.2 ?_⟩
  cases later with
  | nil => simp
  | cons s later =>
    have hmem : s ∈ Statement.lexeme.tokens e.text := by simp [hsplit]
    obtain ⟨a, r, -, hread⟩ := Statement.lexeme.exists_of_mem_tokens hmem
    rw [Statement.lexeme_read] at hread
    have hwell : s.WellFormed := (Statement.read_eq_some_iff.1 hread).1
    obtain ⟨g, hg, hleft⟩ := (hlater s rfl).leavesOpen hwell
    exact absurd hleft (hopen g hg)

/-- An opener whose string ran into the quote of a statement runs on once the statement is taken out. -/
theorem extract_again_exposed :
    let content := "@import '@import \"x\";';".toList
    let e := extract (Ignore.ignores [] false) content
    e = ⟨"@import 'css-light0\x7bdisplay:block\x7d';".toList, ["@import \"x\";".toList]⟩ ∧
      extract (Ignore.ignores [] false) e.text = ⟨"css-light0\x7bdisplay:block\x7d".toList, [e.text]⟩ ∧
      extract (Ignore.ignores [] false) e.text ≠ ⟨e.text, []⟩ := by
  intro content e
  have he : e = ⟨"@import 'css-light0\x7bdisplay:block\x7d';".toList, ["@import \"x\";".toList]⟩ := by
    decide +kernel
  rw [he]
  decide +kernel

end Shield
end StyleShield
