import StyleShield.Ignore

/-! Matchers of a list of globs. Only the set of globs matters: more globs ignore more
(`compileAll_mono`), and order and repetition are of no account. One glob that stands for
everything decides alone (`ignores_of_everything`). -/
namespace StyleShield

namespace Matcher

theorem compileAll_cons (g : Text) (gs : List Text) :
    compileAll (g :: gs) =
      if isSkipped (Text.strip g) then compileAll gs
      else (compile (Text.strip g)).bind fun m => (compileAll gs).map (m :: ·) := by
  rw [compileAll]
  split
  · rfl
  · cases compile (Text.strip g) with
    | error e => rfl
    | ok m => cases compileAll gs <;> rfl

theorem mem_of_compileAll {gs : List Text} {ms : List Matcher} (h : compileAll gs = .ok ms)
    {m : Matcher} :
    m ∈ ms ↔ ∃ g ∈ gs, isSkipped (Text.strip g) = false ∧ compile (Text.strip g) = .ok m := by
  induction gs generalizing ms with
  | nil => simp_all [compileAll]
  | cons g gs ih =>
    rw [compileAll_cons] at h
    by_cases hs : isSkipped (Text.strip g) = true
    · rw [if_pos hs] at h
      simp [ih h, hs]
    · rw [if_neg hs] at h
      cases hc : compile (Text.strip g) with
      | error e => simp [hc, Except.bind] at h
      | ok m' =>
        cases ht : compileAll gs with
        | error e => simp [hc, ht, Except.bind, Except.map] at h
        | ok ms' =>
          simp only [hc, ht, Except.bind, Except.map, Except.ok.injEq] at h
          subst h
          simp [ih ht, hs, hc, @eq_comm _ m m']

theorem compileAll_ok_iff {gs : List Text} :
    (∃ ms, compileAll gs = .ok ms) ↔
      ∀ g ∈ gs, isSkipped (Text.strip g) = false → ∃ m, compile (Text.strip g) = .ok m := by
  induction gs with
  | nil => simp [compileAll]
  | cons g gs ih =>
    rw [compileAll_cons, List.forall_mem_cons, ← ih]
    by_cases hs : isSkipped (Text.strip g) = true
    · simp [hs]
    · cases hc : compile (Text.strip g) with
      | error e => simp [hs, Except.bind]
      | ok m => cases ht : compileAll gs <;> simp [hs, Except.bind, Except.map]

theorem compileAll_of_subset {gs gs' : List Text} (hg : gs ⊆ gs') {ms' : List Matcher}
    (h : compileAll gs' = .ok ms') : ∃ ms, compileAll gs = .ok ms := by
  have ha := compileAll_ok_iff.1 ⟨ms', h⟩
  exact compileAll_ok_iff.2 fun g hmem => ha g (hg hmem)

theorem compileAll_mono {gs gs' : List Text} (hg : gs ⊆ gs') {ms ms' : List Matcher}
    (h : compileAll gs = .ok ms) (h' : compileAll gs' = .ok ms') : ms ⊆ ms' := by
  intro m hm
  obtain ⟨g, hgm, hc⟩ := (mem_of_compileAll h).1 hm
  exact (mem_of_compileAll h').2 ⟨g, hg hgm, hc⟩

/-- A glob without a negation mark is compiled to the patterns of its one line. -/
theorem compile_eq {g : Text} (h : ∀ s, g ≠ '!' :: s) : compile g = (Glob.patternsOf [g]).map (Matcher.mk g) := by
  unfold compile
  split
  · rename_i s
    exact absurd rfl (h s)
  · rfl

theorem glob_of_compile {g : Text} {m : Matcher} (h : compile g = .ok m) : m.glob = g := by
  unfold compile at h
  split at h
  · simp at h
  · cases hp : Glob.patternsOf [g] with
    | error e => simp [hp, Except.map] at h
    | ok ps =>
      simp only [hp, Except.map, Except.ok.injEq] at h
      exact h ▸ rfl

theorem isSkipped_of_mem_everything {g : Text} (h : g ∈ everything) : isSkipped g = false := by
  simp only [everything, List.mem_cons, List.not_mem_nil, or_false] at h
  rcases h with rfl | rfl <;> rfl

end Matcher

namespace Ignore

theorem ignores_of_everything {gs : List Text} {ms : List Matcher} (h : Matcher.compileAll gs = .ok ms)
    (hall : ∃ g ∈ gs, Text.strip g ∈ Matcher.everything) (packages : Bool) (c : Text) :
    ignores ms packages c = true := by
  obtain ⟨g, hg, he⟩ := hall
  have hs := Matcher.isSkipped_of_mem_everything he
  obtain ⟨m, hm⟩ := Matcher.compileAll_ok_iff.1 ⟨ms, h⟩ g hg hs
  have hmem : m ∈ ms := (Matcher.mem_of_compileAll h).2 ⟨g, hg, hs, hm⟩
  have ha : m.accepts c = true :=
    Matcher.accepts_of_mem_everything (by rwa [Matcher.glob_of_compile hm]) c
  simp only [ignores, Bool.or_eq_true, List.any_eq_true]
  exact .inr ⟨m, hmem, ha⟩

theorem ignores_congr {ms ns : List Matcher} (h : ms ⊆ ns) (h' : ns ⊆ ms) (packages : Bool) :
    ignores ms packages = ignores ns packages := by
  funext c
  rw [Bool.eq_iff_iff]
  exact ⟨ignores_mono fun m hm => h hm, ignores_mono fun m hm => h' hm⟩

end Ignore
end StyleShield
