import StyleShield.Glob.Parser
import StyleShield.Proofs.Glob.Match
import StyleShield.Proofs.Text.Split
import StyleShield.Proofs.Text.Strip

/-! Globs without slashes. Such a glob is one segment that may stand at any depth; what it takes there is what
resembles it, so it fits a path exactly if it resembles one of its names (`fits_shapeOf_iff`). -/
namespace StyleShield.Glob

variable {c : Char} {g s u : Text}

/-- What a character of a glob stands for: a star for any text, a question mark for any one character, another
one for itself. -/
inductive StandsFor : (written : Char) → Text → Prop
  | run (u : Text) : StandsFor '*' u
  | one (c : Char) : StandsFor '?' [c]
  | same {c : Char} (plain : c ≠ '*' ∧ c ≠ '?') : StandsFor c [c]

/-- A name made of what the characters of a glob stand for, one after another. -/
inductive Resembles : (name glob : Text) → Prop
  | nil : Resembles [] []
  | cons {c : Char} {g u v : Text} (first : StandsFor c u) (rest : Resembles v g) : Resembles (u ++ v) (c :: g)

/-- Characters that mean themselves in a glob, and the two wildcards. -/
def isSimpleChar (c : Char) : Bool := c.isAlphanum || c ∈ ['.', '_', '-', '*', '?']

/-- A glob of such characters, of which one at least is no star. -/
structure IsSimple (g : Text) : Prop where
  chars : ∀ c ∈ g, isSimpleChar c = true
  named : ∃ c ∈ g, c ≠ '*'

theorem not_isBlank_of_isSimpleChar (h : isSimpleChar c = true) : Text.isBlank c = false := by
  have hcases : c.isAlphanum = true ∨ c ∈ ['.', '_', '-', '*', '?'] := by
    simpa only [isSimpleChar, Bool.or_eq_true, decide_eq_true_eq] using h
  rcases hcases with hletter | hmark
  · exact Text.not_isBlank_of_isAlphanum hletter
  · have hmarks : ['.', '_', '-', '*', '?'].all (!Text.isBlank ·) = true := by decide
    simpa using List.all_eq_true.1 hmarks c hmark

theorem ne_of_isSimpleChar (h : isSimpleChar c = true) : c ≠ '/' ∧ c ≠ '\\' ∧ c ≠ '[' ∧ c ≠ '#' ∧ c ≠ '!' := by
  refine ⟨?_, ?_, ?_, ?_, ?_⟩
  all_goals
    rintro rfl
    exact absurd h (by decide)

section Tokens

def tokenOf (c : Char) : Token := if c = '*' then .anyRun else if c = '?' then .anyOne else .exactly c

theorem tokenOf_of_plain (h : c ≠ '*' ∧ c ≠ '?') : tokenOf c = .exactly c := by
  rw [tokenOf, if_neg h.1, if_neg h.2]

theorem tokens?_of_simple (h : ∀ c ∈ g, isSimpleChar c = true) : tokens? g = some (g.map tokenOf) := by
  induction g with
  | nil => rw [tokens?, List.map_nil]
  | cons c g ih =>
    rw [List.forall_mem_cons] at h
    have hfirst : tokens? (c :: g) = (tokens? g).map (tokenOf c :: ·) := by
      by_cases hrun : c = '*'
      · subst hrun
        rw [tokens?]
        rfl
      · by_cases hone : c = '?'
        · subst hone
          rw [tokens?]
          rfl
        · obtain ⟨-, hescape, hset, -⟩ := ne_of_isSimpleChar h.1
          rw [tokens?.eq_7 c g hescape hrun hone hset, tokenOf_of_plain ⟨hrun, hone⟩]
    rw [hfirst, ih h.2]
    rfl

theorem slash_notMem_iff : '/' ∉ u ↔ ∀ c ∈ u, notSlash c = true := by
  simp only [notSlash, decide_eq_true_eq]
  exact ⟨fun h c hc he => h (he ▸ hc), fun h hmem => h _ hmem rfl⟩

/-- A token takes what its character stands for, as long as there is no slash in it. -/
theorem takes_tokenOf_iff (hc : c ≠ '/') : (tokenOf c).Takes u ↔ '/' ∉ u ∧ StandsFor c u := by
  by_cases hrun : c = '*'
  · subst hrun
    rw [slash_notMem_iff, ← Token.takes_anyRun_iff]
    exact ⟨fun h => ⟨h, .run u⟩, fun h => h.1⟩
  · by_cases hone : c = '?'
    · subst hone
      rw [show tokenOf '?' = .anyOne from rfl, Token.takes_iff_of_ne (by decide)]
      constructor
      · rintro ⟨d, rfl, hd⟩
        exact ⟨slash_notMem_iff.2 (List.forall_mem_singleton.2 hd), .one d⟩
      · rintro ⟨hu, hd⟩
        cases hd with
        | one d => exact ⟨d, rfl, slash_notMem_iff.1 hu d (List.mem_singleton_self d)⟩
        | same plain => exact absurd rfl plain.2
    · rw [tokenOf_of_plain ⟨hrun, hone⟩, Token.takes_iff_of_ne (by simp)]
      constructor
      · rintro ⟨d, rfl, hd⟩
        obtain rfl : d = c := by simpa [Token.allows] using hd
        exact ⟨by simpa using hc.symm, .same ⟨hrun, hone⟩⟩
      · rintro ⟨-, hd⟩
        cases hd with
        | run u => exact absurd rfl hrun
        | one d => exact absurd rfl hone
        | same plain => exact ⟨c, rfl, by simp [Token.allows]⟩

/-- What the tokens of a simple glob take is a stretch of one segment that resembles it. -/
theorem takesAll_iff (h : '/' ∉ g) : TakesAll (g.map tokenOf) u ↔ '/' ∉ u ∧ Resembles u g := by
  induction g generalizing u with
  | nil =>
    constructor
    · intro hu
      cases hu
      exact ⟨List.not_mem_nil, .nil⟩
    · rintro ⟨-, hu⟩
      cases hu
      exact .nil
  | cons c g ih =>
    rw [List.mem_cons, not_or] at h
    constructor
    · intro hu
      cases hu with
      | cons first rest =>
        obtain ⟨hfirst, hc⟩ := (takes_tokenOf_iff (Ne.symm h.1)).1 first
        obtain ⟨hrest, hg⟩ := (ih h.2).1 rest
        exact ⟨by simp [hfirst, hrest], .cons hc hg⟩
    · rintro ⟨hslash, hu⟩
      cases hu with
      | cons first rest =>
        rw [List.mem_append, not_or] at hslash
        exact .cons ((takes_tokenOf_iff (Ne.symm h.1)).2 ⟨hslash.1, first⟩) ((ih h.2).2 ⟨hslash.2, rest⟩)

end Tokens

namespace IsSimple

variable (h : IsSimple g)

include h

theorem slash_notMem : '/' ∉ g := fun hmem => (ne_of_isSimpleChar (h.chars _ hmem)).1 rfl

theorem ne_nil : g ≠ [] := by
  obtain ⟨c, hc, -⟩ := h.named
  exact List.ne_nil_of_mem hc

theorem notMem_everything : g ∉ [globstar, ['*'], []] := by
  obtain ⟨c, hc, hstar⟩ := h.named
  intro hmem
  simp only [globstar, List.mem_cons, List.not_mem_nil, or_false] at hmem
  rcases hmem with rfl | rfl | rfl <;> simp_all

end IsSimple

section Shape

/-- A simple glob is a segment at any depth. -/
def shapeOf (g : Text) : Shape := .parts [.anyAbove, .segment (g.map tokenOf), .boundary]

theorem shape?_of_simple (h : IsSimple g) : shape? g = some (shapeOf g) := by
  have hne := h.notMem_everything
  simp only [List.mem_cons, List.not_mem_nil, or_false, not_or] at hne
  obtain ⟨hglobstar, hstar, hnil⟩ := hne
  have hcompleted : completed [g] = [globstar, g] := by simp [completed, hglobstar, hnil]
  have hcollapsed : collapsed [globstar, g] = [globstar, g] := by simp [collapsed, hglobstar]
  have hparts : parts? [globstar, g] = some [.anyAbove, .segment (g.map tokenOf), .boundary] := by
    simp [parts?, laterParts?, hglobstar, hstar, tokens?_of_simple h.chars]
  unfold shape?
  simp only [Text.splitOn_of_notMem h.slash_notMem, hcompleted, hcollapsed, hparts]
  simp [shapeOf, hstar]

theorem isOrdered_shapeOf (g : Text) : (shapeOf g).isOrdered = true := by
  have htoken (c : Char) : (tokenOf c).isOrdered = true := by
    unfold tokenOf
    split
    · rfl
    · split <;> rfl
  simp [shapeOf, Shape.isOrdered, Part.isOrdered, htoken]

theorem takes_anyAbove_iff {r : Text} (hline : '\n' ∉ u) (hstart : ∀ q, u ++ r ≠ '/' :: q) :
    Part.anyAbove.Takes u ↔ Text.StopsBefore '/' u := by
  constructor
  · intro h
    cases h with
    | noneAbove => exact .inl rfl
    | above _ => exact .inr ⟨_, rfl⟩
  · rintro (rfl | ⟨v, rfl⟩)
    · exact .noneAbove
    · have hv : v ≠ [] := by
        rintro rfl
        exact hstart r rfl
      exact .above ⟨hv, fun hmem => hline (List.mem_append_left _ hmem)⟩

theorem boundary_iff {r : Text} (hline : '\n' ∉ r) : matchParts [.boundary] r = true ↔ Text.StopsBehind '/' r := by
  have hend : atEnd r = true ↔ r = [] := by
    simp only [atEnd, Bool.or_eq_true, decide_eq_true_eq, or_iff_left_iff_imp]
    rintro rfl
    simp at hline
  rw [matchParts_boundary_iff, hend]
  rfl

theorem takeAll_pair_iff {p q : Part} : Part.TakeAll [p, q] u ↔ ∃ v w, u = v ++ w ∧ p.Takes v ∧ q.Takes w := by
  constructor
  · rintro (_ | ⟨hv, _ | ⟨hw, ⟨⟩⟩⟩)
    exact ⟨_, _, by simp, hv, hw⟩
  · rintro ⟨v, w, rfl, hv, hw⟩
    have hlast : Part.TakeAll [q] (w ++ []) := .cons hw .nil
    simpa using Part.TakeAll.cons hv hlast

/-- A path of one line that does not start with a slash has the shape exactly if one of its names resembles the
glob. -/
theorem fits_shapeOf_iff (h : '/' ∉ g) (hline : '\n' ∉ s) (hstart : ∀ q, s ≠ '/' :: q) :
    (shapeOf g).fits s = true ↔ ∃ n ∈ Text.splitOn '/' s, Resembles n g := by
  have hinner : ∀ p ∈ [Part.anyAbove, .segment (g.map tokenOf)], p.IsInner := by simp [Part.IsInner]
  have hmatch : (shapeOf g).fits s = true ↔ ∃ w r, s = w ++ r ∧
      Part.TakeAll [.anyAbove, .segment (g.map tokenOf)] w ∧ matchParts [.boundary] r = true :=
    matchParts_append_iff hinner
  rw [hmatch]
  constructor
  · rintro ⟨w, r, rfl, hw, hr⟩
    obtain ⟨u, n, rfl, hu, hsegment⟩ := takeAll_pair_iff.1 hw
    simp only [List.mem_append, not_or] at hline
    cases hsegment with
    | segment htokens =>
      obtain ⟨hslash, hg⟩ := (takesAll_iff h).1 htokens
      have hu' := (takes_anyAbove_iff (r := n ++ r) hline.1.1 (by simpa using hstart)).1 hu
      exact ⟨n, Text.mem_splitOn_iff.2 ⟨hslash, u, r, rfl, hu', (boundary_iff hline.2).1 hr⟩, hg⟩
  · rintro ⟨n, hn, hg⟩
    obtain ⟨hslash, u, r, rfl, hu, hr⟩ := Text.mem_splitOn_iff.1 hn
    simp only [List.mem_append, not_or] at hline
    have hu' := (takes_anyAbove_iff (r := n ++ r) hline.1.1 (by simpa using hstart)).2 hu
    have hsegment : (Part.segment (g.map tokenOf)).Takes n := .segment ((takesAll_iff h).2 ⟨hslash, hg⟩)
    exact ⟨u ++ n, r, rfl, takeAll_pair_iff.2 ⟨u, n, rfl, hu', hsegment⟩, (boundary_iff hline.2).2 hr⟩

end Shape

end StyleShield.Glob
