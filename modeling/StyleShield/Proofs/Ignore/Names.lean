import StyleShield.Proofs.Glob.Line
import StyleShield.Proofs.Glob.Segment
import StyleShield.Proofs.Ignore

/-! Globs without slashes as ignore rules. They compile, and ignore what has a name that resembles one of them,
be it the last name or that of a directory above it (`ignores_iff_exists_name`). How the path is spelled
does not matter. -/
namespace StyleShield

variable {g : Text}

namespace Glob

theorem IsSimple.solid (h : IsSimple g) : Text.Solid g :=
  Text.solid_of_forall h.ne_nil fun _ hc => not_isBlank_of_isSimpleChar (h.chars _ hc)

theorem IsSimple.ne_comment (h : IsSimple g) (s : Text) : g ≠ '#' :: s := by
  rintro rfl
  exact (ne_of_isSimpleChar (h.chars _ List.mem_cons_self)).2.2.2.1 rfl

theorem IsSimple.ne_negation (h : IsSimple g) (s : Text) : g ≠ '!' :: s := by
  rintro rfl
  exact (ne_of_isSimpleChar (h.chars _ List.mem_cons_self)).2.2.2.2 rfl

theorem patternsOf_of_simple (h : IsSimple g) : patternsOf [g] = .ok [⟨false, shapeOf g⟩] := by
  have hbody : significant g = g := by
    unfold significant
    split
    · rfl
    · exact h.solid.trimEnd_eq
  have hpattern : patternOf g g = .ok ⟨false, shapeOf g⟩ := by
    simp [patternOf, shape?_of_simple h, isOrdered_shapeOf]
  rw [patternsOf, ofLine?_of_body hbody h.ne_nil h.ne_comment h.ne_negation, hpattern]
  rfl

end Glob

namespace Matcher

/-- The matcher of a simple glob. -/
def ofSimple (g : Text) : Matcher := ⟨g, [⟨false, Glob.shapeOf g⟩]⟩

theorem compile_of_simple (h : Glob.IsSimple g) : compile g = .ok (ofSimple g) := by
  rw [compile_eq h.ne_negation, Glob.patternsOf_of_simple h]
  rfl

theorem compileAll_of_simple {globs : List Text} (h : ∀ g ∈ globs, Glob.IsSimple g) :
    compileAll globs = .ok (globs.map ofSimple) := by
  induction globs with
  | nil => rfl
  | cons g globs ih =>
    rw [List.forall_mem_cons] at h
    have hskipped : isSkipped g = false := by
      unfold isSkipped
      split
      · exact absurd rfl h.1.ne_nil
      · exact absurd rfl (h.1.ne_comment _)
      · rfl
    rw [compileAll_cons, h.1.solid.strip_eq, hskipped, compile_of_simple h.1, ih h.2]
    rfl

theorem accepts_ofSimple (h : Glob.IsSimple g) (c : Text) :
    (ofSimple g).accepts c = (Glob.shapeOf g).fits (Glob.localName c) := by
  have hnot : g ∉ everything := by
    intro hmem
    simp only [everything, List.mem_cons, List.not_mem_nil, or_false] at hmem
    rcases hmem with rfl | rfl
    · exact h.notMem_everything (by decide)
    · exact h.slash_notMem (by decide)
  simp [accepts, ofSimple, hnot, Glob.matchPath, Glob.decides]

end Matcher

namespace Ignore

open Glob (IsSimple Resembles localName)

theorem ignores_ofSimple_iff {globs : List Text} (h : ∀ g ∈ globs, IsSimple g) {c : Text} (hline : '\n' ∉ localName c)
    (hstart : ∀ r, localName c ≠ '/' :: r) : ignores (globs.map Matcher.ofSimple) false c = true ↔
      ∃ g ∈ globs, ∃ n ∈ Text.splitOn '/' (localName c), Resembles n g := by
  simp only [ignores, Bool.false_and, Bool.false_or, List.any_map, List.any_eq_true, Function.comp_apply]
  refine exists_congr fun g => and_congr_right fun hg => ?_
  rw [Matcher.accepts_ofSimple (h g hg), Glob.fits_shapeOf_iff (h g hg).slash_notMem hline hstart]

/-- The spellings of a path that is given by its names: absolute, from the current directory on, and bare. A bare
path with a dot for its first name would be taken for one of the second kind. -/
def spellings (names : List Text) : List Text :=
  let path := Text.join ['/'] names
  ['/' :: path, '.' :: '/' :: path] ++ if names.head? = some ['.'] then [] else [path]

/-- The names of a path on one line, of which the first is not empty. -/
structure IsPath (names : List Text) : Prop where
  first : ∃ n rest, names = n :: rest ∧ n ≠ []
  names : ∀ n ∈ names, '/' ∉ n ∧ '\n' ∉ n

namespace IsPath

variable {names : List Text}

theorem ne_nil (h : IsPath names) : names ≠ [] := by
  obtain ⟨n, rest, rfl, -⟩ := h.first
  exact List.cons_ne_nil n rest

theorem exists_cons (h : IsPath names) : ∃ d m t, Text.join ['/'] names = d :: m ++ t ∧
    names.head? = some (d :: m) ∧ '/' ∉ d :: m := by
  obtain ⟨n, rest, rfl, hn⟩ := h.first
  obtain ⟨d, m, rfl⟩ := List.exists_cons_of_ne_nil hn
  have hslash : '/' ∉ d :: m := (h.names _ List.mem_cons_self).1
  cases rest with
  | nil => exact ⟨d, m, [], by simp, rfl, hslash⟩
  | cons q rest => exact ⟨d, m, '/' :: Text.join ['/'] (q :: rest), by simp, rfl, hslash⟩

theorem not_starts (h : IsPath names) (r : Text) : Text.join ['/'] names ≠ '/' :: r := by
  obtain ⟨d, m, t, hpath, -, hslash⟩ := h.exists_cons
  rw [hpath]
  rintro he
  obtain ⟨rfl, -⟩ := List.cons.inj he
  exact hslash List.mem_cons_self

theorem localName_eq (h : IsPath names) {c : Text} (hc : c ∈ spellings names) : localName c = Text.join ['/'] names := by
  simp only [spellings, List.mem_append, List.mem_cons, List.not_mem_nil, or_false] at hc
  rcases hc with (rfl | rfl) | hc
  · rfl
  · rfl
  · split at hc
    · simp at hc
    · rename_i hdot
      obtain rfl := List.mem_singleton.1 hc
      obtain ⟨d, m, t, hpath, hhead, hslash⟩ := h.exists_cons
      rw [hpath]
      unfold localName
      split
      · rename_i s he
        obtain ⟨rfl, -⟩ := List.cons.inj he
        exact absurd List.mem_cons_self hslash
      · rename_i s he
        obtain ⟨rfl, hrest⟩ := List.cons.inj he
        cases m with
        | nil => exact absurd hhead hdot
        | cons e m =>
          obtain ⟨rfl, -⟩ := List.cons.inj hrest
          exact absurd (List.mem_cons_of_mem _ List.mem_cons_self) hslash
      · rfl

end IsPath

theorem newline_notMem_localName {c : Text} (h : '\n' ∉ c) : '\n' ∉ localName c := by
  unfold localName
  split <;> simp_all

/-- Globs of letters, digits and some signs compile, and a candidate is ignored exactly if one of its names
resembles one of them. Whether a path is spelled from the root, from the current directory or bare, it
is ignored exactly if one of the names that it is given by resembles a glob: that of the file, or that of a directory
above it. -/
theorem ignores_iff_exists_name {globs : List Text} (h : ∀ g ∈ globs, IsSimple g) :
    ∃ ms, Matcher.compileAll globs = .ok ms ∧
      (∀ c, '\n' ∉ c → (∀ r, localName c ≠ '/' :: r) →
        (ignores ms false c = true ↔ ∃ g ∈ globs, ∃ n ∈ Text.splitOn '/' (localName c), Resembles n g)) ∧
      ∀ names, IsPath names → ∀ c ∈ spellings names,
        (ignores ms false c = true ↔ ∃ g ∈ globs, ∃ n ∈ names, Resembles n g) := by
  refine ⟨globs.map Matcher.ofSimple, Matcher.compileAll_of_simple h, ?_, ?_⟩
  · intro c hline hstart
    exact ignores_ofSimple_iff h (newline_notMem_localName hline) hstart
  · intro names hnames c hc
    have hlocal : localName c = Text.join ['/'] names := hnames.localName_eq hc
    have hline : '\n' ∉ localName c := by
      rw [hlocal]
      exact Text.notMem_join (by decide) fun n hn => (hnames.names n hn).2
    have hsplit : Text.splitOn '/' (localName c) = names := by
      rw [hlocal]
      exact Text.splitOn_join hnames.ne_nil fun n hn => (hnames.names n hn).1
    rw [ignores_ofSimple_iff h hline (hlocal ▸ hnames.not_starts), hsplit]

/-- Two globs with wildcards. A doubled slash makes an empty name, which resembles none of them; a directory that
begins with an underscore is enough. -/
theorem ignores_iff_exists_name_wildcards :
    let globs := ["_*".toList, "*.l?ss".toList]
    (∀ g ∈ globs, IsSimple g) ∧ ∃ ms, Matcher.compileAll globs = .ok ms ∧
      ignores ms false "./a//_b/c.css".toList = true ∧ ignores ms false "/a/b.c.less/".toList = true := by
  intro globs
  have h : ∀ g ∈ globs, IsSimple g := by
    intro g hg
    have hchecks : ∀ g ∈ globs, g.all Glob.isSimpleChar = true ∧ g.any (· ≠ '*') = true := by decide
    obtain ⟨hall, hany⟩ := hchecks g hg
    exact ⟨List.all_eq_true.1 hall, by simpa using hany⟩
  have hunderscore : Resembles "_b".toList "_*".toList := .cons (.same (by decide)) (.cons (.run ['b']) .nil)
  have hextension : Resembles "b.c.less".toList "*.l?ss".toList :=
    .cons (.run ['b', '.', 'c']) (.cons (.same (by decide)) (.cons (.same (by decide)) (.cons (.one 'e')
      (.cons (.same (by decide)) (.cons (.same (by decide)) .nil)))))
  obtain ⟨ms, hms, hiff, -⟩ := ignores_iff_exists_name h
  have hfirst : ∀ r, localName "./a//_b/c.css".toList ≠ '/' :: r := by simp [localName]
  have hsecond : ∀ r, localName "/a/b.c.less/".toList ≠ '/' :: r := by simp [localName]
  exact ⟨h, ms, hms, (hiff _ (by decide) hfirst).2 ⟨_, .head _, _, by decide, hunderscore⟩,
    (hiff _ (by decide) hsecond).2 ⟨_, .tail _ (.head _), _, by decide, hextension⟩⟩

end Ignore
end StyleShield
