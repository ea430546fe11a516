import Mathlib.Data.List.Basic
import Mathlib.Data.List.TakeWhile
import StyleShield.Placeholder
import StyleShield.Proofs.Text.Digits
import StyleShield.Proofs.Text.Pieces
import StyleShield.Proofs.Text.Weave

/-! The language of placeholder rules. A rule that is written is read back whatever follows
it (`read_eq_some_iff`), and no rule reaches into another one that stands behind it
(`standsApart_written`), so a text woven from gaps and rules falls into the pieces of the
gaps and those rules (`pieces_weave`). Reading a text finds every rule in it
(`mem_tokens_iff`). -/
namespace StyleShield.Placeholder

open Lexeme

/-- The places where a compiler may put blanks. -/
def gaps (p : Placeholder) : List Text :=
  [p.beforeBrace, p.afterBrace, p.beforeColon, p.afterColon, p.afterBlock] ++ p.afterSemicolon.toList

/-- Digits are digits and gaps are blank. -/
structure WellFormed (p : Placeholder) : Prop where
  digits : ∀ c ∈ p.digits, Text.isDecimalDigit c = true
  blank : ∀ g ∈ p.gaps, ∀ c ∈ g, Text.isBlank c = true

instance (p : Placeholder) : Decidable p.WellFormed :=
  decidable_of_iff (p.digits.all Text.isDecimalDigit = true ∧ p.gaps.all (·.all Text.isBlank) = true)
    ⟨fun h => ⟨List.all_eq_true.1 h.1, by simpa using h.2⟩,
      fun h => ⟨List.all_eq_true.2 h.digits, by simpa using h.blank⟩⟩

/-- The rule stands somewhere in the text. -/
def OccursIn (p : Placeholder) (s : Text) : Prop := p.WellFormed ∧ p.written <:+: s

def Absent (s : Text) : Prop := ∀ p : Placeholder, ¬ p.OccursIn s

theorem readGap_of_blank {g s : Text} (hg : ∀ c ∈ g, Text.isBlank c = true)
    (hs : s.takeWhile Text.isBlank = []) : readGap (g ++ s) = (g, s) := by
  have hd : s.dropWhile Text.isBlank = s :=
    List.dropWhile_eq_self_iff.2 (List.takeWhile_eq_nil_iff.1 hs)
  rw [readGap, List.takeWhile_append_of_pos hg, List.dropWhile_append_of_pos hg, hs, hd,
    List.append_nil]

theorem readClose_semicolonText {t : Option Text} (ht : ∀ g ∈ t, ∀ c ∈ g, Text.isBlank c = true)
    (r : Text) : readClose (semicolonText t ++ '}' :: r) = some (t, r) := by
  cases t with
  | none => rfl
  | some g =>
    have hg : readGap (g ++ '}' :: r) = (g, '}' :: r) := readGap_of_blank (ht g rfl) rfl
    simp [semicolonText, readClose, hg]

theorem span_digits {d g s : Text} (hd : ∀ c ∈ d, Text.isDecimalDigit c = true)
    (hg : ∀ c ∈ g, Text.isBlank c = true) :
    (d ++ (g ++ '{' :: s)).takeWhile Text.isDecimalDigit = d ∧
      (d ++ (g ++ '{' :: s)).dropWhile Text.isDecimalDigit = g ++ '{' :: s := by
  rw [List.takeWhile_append_of_pos hd, List.dropWhile_append_of_pos hd]
  cases g with
  | nil => exact ⟨by simp [show Text.isDecimalDigit '{' = false by decide], rfl⟩
  | cons c g =>
    have hc : Text.isDecimalDigit c = false := by
      by_contra h
      have hb := Text.isBlank_of_isDecimalDigit (by simpa using h : Text.isDecimalDigit c = true)
      simp [hg c (by simp)] at hb
    simp [hc]

/-- A rule is read back whatever follows it. -/
theorem read_written_append {p : Placeholder} (h : p.WellFormed) (r : Text) :
    read (p.written ++ r) = some (p, r) := by
  obtain ⟨d, g₁, g₂, g₃, g₄, g₅, t, hn⟩ := p
  obtain ⟨hd, hb⟩ := h
  simp only [gaps, List.cons_append, List.nil_append, List.forall_mem_cons, Option.mem_toList] at hd hb
  obtain ⟨h₁, h₂, h₃, h₄, h₅, ht⟩ := hb
  have e (s : Text) := span_digits (s := s) hd h₁
  have ha (c : Char) (s : Text) : Text.after? [c] (c :: s) = some s := Text.after?_append [c] s
  have e₁ (s : Text) : readGap (g₁ ++ '{' :: s) = (g₁, '{' :: s) := readGap_of_blank h₁ rfl
  have e₂ (s : Text) : readGap (g₂ ++ (display ++ s)) = (g₂, display ++ s) := readGap_of_blank h₂ rfl
  have e₃ (s : Text) : readGap (g₃ ++ ':' :: s) = (g₃, ':' :: s) := readGap_of_blank h₃ rfl
  have e₄ (s : Text) : readGap (g₄ ++ (block ++ s)) = (g₄, block ++ s) := readGap_of_blank h₄ rfl
  have hc := readClose_semicolonText ht r
  have e₅ : readGap (g₅ ++ (semicolonText t ++ '}' :: r)) = (g₅, semicolonText t ++ '}' :: r) :=
    readGap_of_blank h₅ (by cases t <;> rfl)
  have hw : written ⟨d, g₁, g₂, g₃, g₄, g₅, t, hn⟩ ++ r = stem ++ (d ++ (g₁ ++ '{' :: (g₂ ++ (display ++
      (g₃ ++ ':' :: (g₄ ++ (block ++ (g₅ ++ (semicolonText t ++ '}' :: r))))))))) := by
    simp [written, bodyText]
  rw [hw]
  simp only [read, Option.bind_eq_bind, Text.after?_append, Option.bind_some, e, e₁, ha, e₂, e₃, e₄, e₅, hc,
    dif_pos hn]

theorem blank_of_readClose {s r : Text} {t : Option Text} (h : readClose s = some (t, r)) :
    ∀ g ∈ t, ∀ c ∈ g, Text.isBlank c = true := by
  intro g hg c hc
  unfold readClose at h
  split at h
  · simp only [Option.some.injEq, Prod.mk.injEq] at h
    simp [← h.1] at hg
  · rename_i u
    split at h
    · rename_i gap r' hu
      simp only [Option.some.injEq, Prod.mk.injEq] at h
      have he : g = u.takeWhile Text.isBlank := by
        rw [← h.1, Option.mem_some] at hg
        exact hg.symm.trans (congrArg Prod.fst hu).symm
      exact List.mem_takeWhile_imp (he ▸ hc)
    · simp at h
  · simp at h

theorem wellFormed_of_read {s r : Text} {p : Placeholder} (h : read s = some (p, r)) : p.WellFormed := by
  simp only [read, Option.bind_eq_bind, Option.bind_eq_some_iff, Text.after?_eq_some_iff] at h
  obtain ⟨s₁, rfl, s₂, h₂, s₃, h₃, s₄, h₄, s₅, h₅, ⟨close, s₆⟩, h₆, h⟩ := h
  simp only [Option.dite_none_right_eq_some, Option.some.injEq, Prod.mk.injEq] at h
  obtain ⟨hn, rfl, rfl⟩ := h
  have hb (s : Text) : ∀ c ∈ (readGap s).1, Text.isBlank c = true := fun c hc => List.mem_takeWhile_imp hc
  refine ⟨fun c hc => List.mem_takeWhile_imp hc, ?_⟩
  simp only [gaps, List.cons_append, List.nil_append, List.forall_mem_cons, Option.mem_toList]
  exact ⟨hb _, hb _, hb _, hb _, hb _, blank_of_readClose h₆⟩

/-- The recogniser takes the written rules, and no text starts with two of them. -/
theorem read_eq_some_iff {s r : Text} {p : Placeholder} :
    read s = some (p, r) ↔ p.WellFormed ∧ s = p.written ++ r :=
  ⟨fun h => ⟨wellFormed_of_read h, eq_of_read h⟩, fun ⟨hp, hs⟩ => hs ▸ read_written_append hp r⟩

/-! A rule has the letter `c` in two places: at its start and in `block`. Only the first is
followed by an `s`, so the stem of another rule cannot stand inside. -/

def beforeLetter (p : Placeholder) : Text :=
  stem.tail ++ p.digits ++ p.beforeBrace ++ '{' :: p.afterBrace ++ display ++ p.beforeColon ++
    ':' :: p.afterColon ++ block.take 3

def afterLetter (p : Placeholder) : Text :=
  'k' :: p.afterBlock ++ semicolonText p.afterSemicolon ++ ['}']

theorem written_eq_letters (p : Placeholder) :
    p.written = 'c' :: (p.beforeLetter ++ 'c' :: p.afterLetter) := by
  simp [written, bodyText, beforeLetter, afterLetter, stem, block]

theorem letter_notMem_of_blank {g : Text} (hg : ∀ c ∈ g, Text.isBlank c = true) : 'c' ∉ g :=
  fun h => absurd (hg 'c' h) (by decide)

theorem letter_notMem {p : Placeholder} (h : p.WellFormed) :
    'c' ∉ p.beforeLetter ∧ 'c' ∉ p.afterLetter := by
  obtain ⟨hd, hb⟩ := h
  simp only [gaps, List.cons_append, List.nil_append, List.forall_mem_cons, Option.mem_toList] at hb
  obtain ⟨h₁, h₂, h₃, h₄, h₅, ht⟩ := hb
  have hd' : 'c' ∉ p.digits := fun hc => absurd (hd 'c' hc) (by decide)
  have h₆ : 'c' ∉ semicolonText p.afterSemicolon := by
    cases hs : p.afterSemicolon with
    | none => simp [semicolonText]
    | some g => simp [semicolonText, letter_notMem_of_blank (ht g hs)]
  simp [beforeLetter, afterLetter, stem, display, block, hd', h₆, letter_notMem_of_blank h₁,
    letter_notMem_of_blank h₂, letter_notMem_of_blank h₃, letter_notMem_of_blank h₄,
    letter_notMem_of_blank h₅]

/-- The rest of a rule that is cut in two is not the start of another one. -/
theorem not_stem_of_written_eq {p : Placeholder} (h : p.WellFormed) {a b r u : Text} (ha : a ≠ [])
    (hb : b ≠ []) (hp : p.written = a ++ b) : b ++ r ≠ stem ++ u := by
  intro hs
  obtain ⟨hbefore, hafter⟩ := letter_notMem h
  obtain ⟨x, a, rfl⟩ := List.exists_cons_of_ne_nil ha
  obtain ⟨y, b, rfl⟩ := List.exists_cons_of_ne_nil hb
  simp only [stem, List.cons_append, List.cons.injEq] at hs
  obtain ⟨rfl, hs⟩ := hs
  have hl : p.beforeLetter ++ 'c' :: p.afterLetter = a ++ 'c' :: b := by
    rw [written_eq_letters] at hp
    exact (List.cons.inj hp).2
  obtain ⟨-, -, rfl⟩ := (List.append_cons_inj_of_notMem hbefore hafter).1 hl
  simp [afterLetter] at hs

theorem standsApart_stem (u : Text) : lexeme.StandsApart (stem ++ u) := by
  intro a ha
  change read (a ++ (stem ++ u)) = (read a).map fun q => (q.1, q.2 ++ (stem ++ u))
  cases hr : read a with
  | some q =>
    obtain ⟨p, r⟩ := q
    obtain ⟨hp, rfl⟩ := read_eq_some_iff.1 hr
    rw [List.append_assoc, read_written_append hp, Option.map_some]
  | none =>
    rw [Option.map_none, Option.eq_none_iff_forall_not_mem]
    rintro ⟨p, r⟩ hm
    obtain ⟨hp, hs⟩ := read_eq_some_iff.1 hm
    rcases List.append_eq_append_iff.1 hs with ⟨b, hb, hu⟩ | ⟨b, rfl, -⟩
    · by_cases hn : b = []
      · have hw := read_written_append hp []
        rw [hb, hn, List.append_nil, List.append_nil, hr] at hw
        simp at hw
      · exact not_stem_of_written_eq hp ha hn hb hu.symm
    · rw [read_written_append hp] at hr
      simp at hr

theorem standsApart_written (p : Placeholder) (r : Text) : lexeme.StandsApart (p.written ++ r) := by
  rw [written, List.append_assoc, List.append_assoc]
  exact standsApart_stem _

theorem pieces_written_append {p : Placeholder} (h : p.WellFormed) (r : Text) :
    lexeme.pieces (p.written ++ r) = .token p :: lexeme.pieces r :=
  lexeme.pieces_of_read (read_written_append h r)

/-- A text woven from gaps and rules falls into the pieces of the gaps and those rules. -/
theorem pieces_weave {gs : List Text} {ps : List Placeholder} (h : gs.length = ps.length + 1)
    (hp : ∀ p ∈ ps, p.WellFormed) :
    lexeme.pieces (weave gs (ps.map written)) =
      weave (gs.map lexeme.pieces) (ps.map fun p => [.token p]) := by
  induction gs, ps, h using weave_induction with
  | last g => simp
  | step g p gs ps _ ih =>
    have hs := standsApart_written p (weave gs (ps.map written))
    rw [List.map_cons, weave_cons_cons, List.append_assoc, pieces_append hs,
      pieces_written_append (hp p (by simp)), ih fun q hq => hp q (by simp [hq])]
    simp

theorem tokens_weave {gs : List Text} {ps : List Placeholder} (h : gs.length = ps.length + 1)
    (hp : ∀ p ∈ ps, p.WellFormed) :
    lexeme.tokens (weave gs (ps.map written)) = weave (gs.map lexeme.tokens) (ps.map fun p => [p]) := by
  rw [tokens_eq, pieces_weave h hp, map_weave tokensOf tokensOf_append (by simpa using h),
    List.map_map, List.map_map]
  rfl

theorem fill_pieces_weave (f : Placeholder → Text) {gs : List Text} {ps : List Placeholder}
    (h : gs.length = ps.length + 1) (hp : ∀ p ∈ ps, p.WellFormed) :
    fill f (lexeme.pieces (weave gs (ps.map written))) =
      weave (gs.map fun g => fill f (lexeme.pieces g)) (ps.map f) := by
  rw [pieces_weave h hp, map_weave (fill f) (fill_append f) (by simpa using h)]
  simp [Function.comp_def]

/-- Reading finds every rule that stands in a text, and nothing else. -/
theorem mem_tokens_iff {p : Placeholder} {s : Text} : p ∈ lexeme.tokens s ↔ p.OccursIn s := by
  constructor
  · intro h
    obtain ⟨a, r, rfl, hr⟩ := lexeme.exists_of_mem_tokens h
    exact ⟨(read_eq_some_iff.1 hr).1, a, r, List.append_assoc _ _ _⟩
  · rintro ⟨hp, a, r, rfl⟩
    rw [List.append_assoc, lexeme.tokens_append (standsApart_written p r),
      lexeme.tokens_of_read (read_written_append hp r)]
    simp

theorem absent_iff {s : Text} : Absent s ↔ lexeme.tokens s = [] := by
  simp [Absent, ← mem_tokens_iff, List.eq_nil_iff_forall_not_mem]

theorem OccursIn.of_infix {p : Placeholder} {s t : Text} (h : p.OccursIn s) (hs : s <:+: t) :
    p.OccursIn t := ⟨h.1, h.2.trans hs⟩

/-! Between gaps without rules, the rules that are laid there are the only ones. -/

theorem tokens_weave_of_absent {gs : List Text} {ps : List Placeholder} (h : gs.length = ps.length + 1)
    (hg : ∀ g ∈ gs, Absent g) (hp : ∀ p ∈ ps, p.WellFormed) :
    lexeme.tokens (weave gs (ps.map written)) = ps := by
  have hn : ∀ g ∈ gs.map lexeme.tokens, g = [] := by simpa using fun g hm => absent_iff.1 (hg g hm)
  rw [tokens_weave h hp, weave_of_forall_eq_nil (by simpa using h) hn]
  simp [← List.flatMap_def]

theorem fill_pieces_weave_of_absent (f : Placeholder → Text) {gs : List Text} {ps : List Placeholder}
    (h : gs.length = ps.length + 1) (hg : ∀ g ∈ gs, Absent g) (hp : ∀ p ∈ ps, p.WellFormed) :
    fill f (lexeme.pieces (weave gs (ps.map written))) = weave gs (ps.map f) := by
  have hf : gs.map (fun g => fill f (lexeme.pieces g)) = gs :=
    (List.map_congr_left fun g hm => fill_pieces_eq_self _ (by simp [absent_iff.1 (hg g hm)])).trans
      (List.map_id gs)
  rw [fill_pieces_weave f h hp, hf]

theorem notMem_written {p : Placeholder} (h : p.WellFormed) {c : Char}
    (hd : Text.isDecimalDigit c = false) (hb : Text.isBlank c = false)
    (hc : c ∉ stem ++ display ++ block ++ ['{', ':', ';', '}']) : c ∉ p.written := by
  have hdigits : c ∉ p.digits := fun hm => by simp [h.digits c hm] at hd
  have hgap {g : Text} (hg : g ∈ p.gaps) : c ∉ g := fun hm => by simp [h.blank g hg c hm] at hb
  have hclose : c ∉ semicolonText p.afterSemicolon := by
    cases hs : p.afterSemicolon with
    | none => simp [semicolonText]
    | some g =>
      have hg : c ∉ g := hgap (by simp [gaps, hs])
      simp_all [semicolonText]
  simp only [gaps, List.cons_append, List.nil_append, List.mem_cons] at hgap
  simp_all [written, bodyText]

theorem brace_mem_written (p : Placeholder) : '{' ∈ p.written := by simp [written, bodyText]

/-! The rules that are put in: tight ones, numbered from zero. -/

def ofIndex (n : Nat) : Placeholder := ⟨Text.ofNat n, [], [], [], [], [], none, Text.ofNat_ne_nil n⟩

theorem written_ofIndex (n : Nat) : (ofIndex n).written = tight n := by
  change _ = stem ++ Text.ofNat n ++ ['{'] ++ display ++ [':'] ++ block ++ ['}']
  simp [ofIndex, written, bodyText, semicolonText]

theorem wellFormed_ofIndex (n : Nat) : (ofIndex n).WellFormed :=
  ⟨fun _ hc => Text.isDecimalDigit_of_mem_ofNat hc, by simp [gaps, ofIndex]⟩

@[simp] theorem index_ofIndex (n : Nat) : (ofIndex n).index = n := Text.readDecimal_ofNat n

end StyleShield.Placeholder
