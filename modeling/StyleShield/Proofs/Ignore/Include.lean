import Mathlib
import StyleShield.Discovery
import StyleShield.Proofs.Glob.Ending
import StyleShield.Proofs.Glob.Line
import StyleShield.Proofs.Ignore

/-! One glob as an ignore rule and as an include pattern. A rule is stripped before it is read, so a glob means as a
rule what its stripped form means as a pattern (`decidedBy_agrees`). That is what the glob itself means, unless it
ends in an escaped space. -/
namespace StyleShield

namespace Discovery

/-- What a glob decides about a file name as the only include pattern. -/
def decidedBy (glob name : Text) : Except Fault Bool :=
  (Glob.patternsOf (includesOf (some [glob]))).map fun ps => Glob.matchPath ps name

theorem decidedBy_eq (glob name : Text) :
    decidedBy glob name = (Glob.Pattern.ofLine? glob).map fun p? => Glob.matchPath p?.toList name := by
  have hincludes : includesOf (some [glob]) = [glob] := rfl
  rw [decidedBy, hincludes, Glob.patternsOf_singleton]
  cases Glob.Pattern.ofLine? glob <;> rfl

theorem toOption_decidedBy_congr {glob other : Text} (h : Glob.significant glob = Glob.significant other) (name : Text) :
    (decidedBy glob name).toOption = (decidedBy other name).toOption := by
  have hpattern := Glob.toOption_ofLine?_congr h
  rw [decidedBy_eq, decidedBy_eq]
  cases hg : Glob.Pattern.ofLine? glob <;> cases ho : Glob.Pattern.ofLine? other <;>
    simp_all [Except.toOption, Except.map]

theorem decidedBy_of_body {glob body : Text} (hbody : Glob.significant glob = body) (hne : body ≠ [])
    (hcomment : ∀ s, body ≠ '#' :: s) (hnegation : ∀ s, body ≠ '!' :: s) (name : Text) :
    decidedBy glob name = (Glob.patternOf glob body).map fun p => Glob.matchPath [p] name := by
  rw [decidedBy_eq, Glob.ofLine?_of_body hbody hne hcomment hnegation]
  cases Glob.patternOf glob body <;> rfl

end Discovery

namespace Ignore

open Text (strip endsWith isBlank)

variable {glob name : Text}

/-- What a glob decides about a candidate as the only rule. -/
def decidedBy (glob candidate : Text) : Except Fault Bool :=
  (Matcher.compileAll [glob]).map fun ms => ignores ms false candidate

theorem decidedBy_eq_stripped (hnegation : ∀ s, strip glob ≠ '!' :: s) (heverything : strip glob ∉ Matcher.everything)
    (name : Text) : decidedBy glob name = Discovery.decidedBy (strip glob) name := by
  rw [decidedBy, Discovery.decidedBy_eq, Matcher.compileAll_cons]
  by_cases hskipped : Matcher.isSkipped (strip glob) = true
  · have hsignificant : Matcher.isSkipped (Glob.significant (strip glob)) = true := by
      rwa [Glob.significant_strip]
    rw [if_pos hskipped, Glob.ofLine?_of_skipped hsignificant]
    rfl
  · rw [if_neg hskipped, Matcher.compile_eq hnegation, Glob.patternsOf_singleton]
    cases Glob.Pattern.ofLine? (strip glob) with
    | error e => rfl
    | ok p? =>
      simp [Except.map, Except.bind, Matcher.compileAll, ignores, Matcher.accepts, heverything]

theorem strip_ne_negation (hstart : ∀ c v, glob = c :: v → isBlank c = false) (hnegation : ∀ s, glob ≠ '!' :: s)
    (s : Text) : strip glob ≠ '!' :: s := by
  intro hs
  obtain ⟨v, hv, -⟩ := Text.trimEnd_append isBlank glob
  rw [← Text.strip_eq_trimEnd hstart, hs] at hv
  exact hnegation _ hv

section EscapedSpace

theorem exists_of_endsWith (h : endsWith ['\\', ' '] glob = true) : ∃ u, glob = u ++ ['\\', ' '] := by
  obtain ⟨u, hu⟩ := List.isSuffixOf_iff_suffix.1 h
  exact ⟨u, hu.symm⟩

theorem strip_escaped (u : Text) (hstart : ∀ c v, u ++ ['\\', ' '] = c :: v → isBlank c = false) :
    strip (u ++ ['\\', ' ']) = u ++ ['\\'] := by
  have hspace : isBlank ' ' = true := by decide
  have hbackslash : isBlank '\\' = false := by decide
  rw [Text.strip_eq_trimEnd hstart]
  simp [Text.trimEnd, hspace, hbackslash]

theorem exists_prefix_localName {v : Text} (h : v <+: Glob.localName name) :
    ∃ c, c <+: name ∧ Glob.localName c = v := by
  unfold Glob.localName at h
  split at h
  · exact ⟨'/' :: v, by simpa using h, rfl⟩
  · exact ⟨'.' :: '/' :: v, by simpa using h, rfl⟩
  · rename_i hslash hdot
    refine ⟨v, h, ?_⟩
    obtain ⟨t, rfl⟩ := h
    unfold Glob.localName
    split
    · exact absurd rfl (hslash _)
    · exact absurd rfl (hdot _)
    · rfl

theorem exists_pattern_of_decidedBy (hnegation : ∀ s, Glob.significant glob ≠ '!' :: s)
    (h : Discovery.decidedBy glob name = .ok true) : ∃ p, Glob.patternOf glob (Glob.significant glob) = .ok p ∧
      (∀ s, Glob.significant glob ≠ '#' :: s) ∧ Glob.matchPath [p] name = true := by
  have hread : Matcher.isSkipped (Glob.significant glob) = false := by
    rw [Bool.eq_false_iff]
    intro hskipped
    rw [Discovery.decidedBy_eq, Glob.ofLine?_of_skipped hskipped] at h
    simp [Except.map, Glob.matchPath, Glob.decides] at h
  have hne : Glob.significant glob ≠ [] := by
    intro he
    simp [he, Matcher.isSkipped] at hread
  have hcomment (s : Text) : Glob.significant glob ≠ '#' :: s := by
    intro he
    simp [he, Matcher.isSkipped] at hread
  rw [Discovery.decidedBy_of_body rfl hne hcomment hnegation] at h
  cases hp : Glob.patternOf glob (Glob.significant glob) with
  | error e => simp [hp, Except.map] at h
  | ok p => exact ⟨p, rfl, hcomment, by simpa [hp, Except.map] using h⟩

/-- An escaped space at the end is part of what the glob means as a pattern, and is lost in a rule. -/
theorem decidedBy_escaped (hstart : ∀ c v, glob = c :: v → isBlank c = false) (hnegation : ∀ s, glob ≠ '!' :: s)
    (hend : endsWith ['\\', ' '] glob = true) (hname : Discovery.decidedBy glob name = .ok true) :
    ∃ c, c <+: name ∧ (decidedBy glob c).toOption ≠ (Discovery.decidedBy glob c).toOption := by
  have hsignificant : Glob.significant glob = glob := by rw [Glob.significant, if_pos hend]
  obtain ⟨p, hp, hcomment, hfits⟩ := exists_pattern_of_decidedBy (by rwa [hsignificant]) hname
  rw [hsignificant] at hp hcomment
  obtain ⟨u, rfl⟩ := exists_of_endsWith hend
  obtain ⟨shape, hshape, hordered, rfl⟩ := Glob.patternOf_eq_ok_iff.1 hp
  obtain ⟨lead?, ts, hinner, hspace, hbare⟩ := Glob.shape?_escape_space u
  obtain ⟨lead, rfl, rfl⟩ := Option.map_eq_some_iff.1 (hspace.symm.trans hshape)
  rw [Glob.matchPath_singleton] at hfits
  have hpattern (c : Text) : Discovery.decidedBy (u ++ ['\\', ' ']) c =
      .ok ((Glob.endingIn lead (ts ++ [.exactly ' '])).fits (Glob.localName c)) := by
    rw [Discovery.decidedBy_of_body hsignificant (by simp) hcomment hnegation, hp]
    simp [Except.map]
  have hrule (c : Text) : decidedBy (u ++ ['\\', ' ']) c =
      (Glob.patternOf (u ++ ['\\']) (u ++ ['\\'])).map fun p => Glob.matchPath [p] c := by
    have hstrip := strip_escaped u hstart
    have hstripped : Glob.significant (u ++ ['\\']) = u ++ ['\\'] := by
      rw [← hstrip, Glob.significant_strip]
    have hnegation' : ∀ s, u ++ ['\\'] ≠ '!' :: s := by
      rw [← hstrip]
      exact strip_ne_negation hstart hnegation
    have hcomment' (s : Text) (hs : u ++ ['\\'] = '#' :: s) : False := by
      refine hcomment (s ++ [' ']) ?_
      rw [← List.cons_append, ← hs, List.append_assoc]
      rfl
    have heverything : u ++ ['\\'] ∉ Matcher.everything := by
      intro hmem
      have hplain : ∀ g ∈ Matcher.everything, '\\' ∉ g := by decide
      exact hplain _ hmem (by simp)
    rw [decidedBy_eq_stripped (by rwa [hstrip]) (by rwa [hstrip]), hstrip,
      Discovery.decidedBy_of_body hstripped (by simp) hcomment' hnegation']
  -- The backslash that is left is alone, and no pattern, or it is escaped itself, and one that takes other names.
  rcases hbare with hnone | hsome
  · refine ⟨name, List.prefix_rfl, ?_⟩
    rw [hrule, hpattern, Glob.patternOf, hnone]
    simp [Except.map, Except.toOption]
  · obtain ⟨v, hv, hbarefits, hspacefits⟩ := Glob.exists_prefix_fits_only (hinner lead rfl) hfits
    obtain ⟨c, hc, rfl⟩ := exists_prefix_localName hv
    have hbarepattern : Glob.patternOf (u ++ ['\\']) (u ++ ['\\']) = .ok ⟨false, Glob.endingIn lead ts⟩ :=
      Glob.patternOf_eq_ok_iff.2 ⟨_, hsome, by rwa [← Glob.isOrdered_endingIn_space], rfl⟩
    refine ⟨c, hc, ?_⟩
    rw [hrule, hpattern, hbarepattern, hspacefits]
    simp [Except.map, Except.toOption, hbarefits]

end EscapedSpace

/-- A glob means as a rule what its stripped form means as an include pattern. That is what the glob itself means as
a pattern, fault or not, unless it ends in an escaped space. If it does and takes some name as a pattern, the two
differ on that name or on a beginning of it. -/
theorem decidedBy_agrees (hstart : ∀ c v, glob = c :: v → isBlank c = false) (hnegation : ∀ s, glob ≠ '!' :: s)
    (heverything : strip glob ∉ Matcher.everything) :
    (∀ name, decidedBy glob name = Discovery.decidedBy (strip glob) name) ∧
    (endsWith ['\\', ' '] glob = false →
      ∀ name, (decidedBy glob name).toOption = (Discovery.decidedBy glob name).toOption) ∧
    (endsWith ['\\', ' '] glob = true → ∀ name, Discovery.decidedBy glob name = .ok true →
      ∃ c, c <+: name ∧ (decidedBy glob c).toOption ≠ (Discovery.decidedBy glob c).toOption) := by
  have hrule := decidedBy_eq_stripped (strip_ne_negation hstart hnegation) heverything
  refine ⟨hrule, fun hend name => ?_, fun hend name => decidedBy_escaped hstart hnegation hend⟩
  have hsignificant : Glob.significant (strip glob) = Glob.significant glob := by
    rw [Glob.significant_strip, Glob.significant_eq_strip hstart hend]
  rw [hrule, Discovery.toOption_decidedBy_congr hsignificant]

/-- With a blank behind it a glob is the same on both routes; the escaped space of `a\ ` is lost on one. -/
theorem decidedBy_agrees_blank_behind :
    let plain := "a.l?ss ".toList
    let escaped := "a\\\\ ".toList
    ((∀ c v, plain = c :: v → isBlank c = false) ∧ (∀ s, plain ≠ '!' :: s) ∧ strip plain ∉ Matcher.everything) ∧
    ((∀ c v, escaped = c :: v → isBlank c = false) ∧ (∀ s, escaped ≠ '!' :: s) ∧ strip escaped ∉ Matcher.everything) ∧
    (∀ name, (decidedBy plain name).toOption = (Discovery.decidedBy plain name).toOption) ∧
    ∃ c, c <+: "a\\ ".toList ∧ (decidedBy escaped c).toOption ≠ (Discovery.decidedBy escaped c).toOption := by
  intro plain escaped
  have hplain : (∀ c v, plain = c :: v → isBlank c = false) ∧ (∀ s, plain ≠ '!' :: s) ∧
      strip plain ∉ Matcher.everything := by
    refine ⟨?_, ?_, by decide⟩
    · rintro c v hc
      obtain ⟨rfl, -⟩ := List.cons.inj hc
      decide
    · rintro s hs
      exact absurd (List.cons.inj hs).1 (by decide)
  have hescaped : (∀ c v, escaped = c :: v → isBlank c = false) ∧ (∀ s, escaped ≠ '!' :: s) ∧
      strip escaped ∉ Matcher.everything := by
    refine ⟨?_, ?_, by decide⟩
    · rintro c v hc
      obtain ⟨rfl, -⟩ := List.cons.inj hc
      decide
    · rintro s hs
      exact absurd (List.cons.inj hs).1 (by decide)
  refine ⟨hplain, hescaped, (decidedBy_agrees hplain.1 hplain.2.1 hplain.2.2).2.1 (by decide), ?_⟩
  exact (decidedBy_agrees hescaped.1 hescaped.2.1 hescaped.2.2).2.2 (by decide) _ (by cbv)

/-- The escaped space is what the file name ends in; the rule without it ends in a lone backslash. -/
theorem decidedBy_lone_backslash :
    Discovery.decidedBy "a\\ ".toList "a ".toList = .ok true ∧
    decidedBy "a\\ ".toList "a ".toList = .error (.invalidPattern "a\\".toList) ∧
    Discovery.decidedBy "a\\\\ ".toList "a\\ ".toList = .ok true ∧
    decidedBy "a\\\\ ".toList "a\\ ".toList = .ok false := by
  refine ⟨?_, ?_, ?_, ?_⟩
  all_goals cbv

end Ignore
end StyleShield
