import StyleShield.Proofs.CommandLine.Inputs
import StyleShield.Proofs.Targets.Clash

/-! Where an input root lies is of no account. A file is judged and placed by its path below its base
(`relative_of_standsAt`), or by its bare name if no base contains it name by name (`relative_of_stray`). So inputs that
are moved with their bases are kept or left out as before (`moved_wanted`), and the targets that are planned for them
are the same (`plans_congr`). -/
namespace StyleShield

namespace Path

variable {base p r : Path}

/-- The path goes on from the base, name by name. -/
def Contains (base p : Path) : Prop := base.anchor = p.anchor ∧ base.names <+: p.names

theorem below?_eq_none_iff : below? base p = none ↔ ¬ Contains base p := by
  simp [below?, Contains]

end Path

namespace StyleFile

variable {f g : StyleFile} {base r : Path}

/-- The file lies at a relative path below its base. -/
def StandsAt (f : StyleFile) (base r : Path) : Prop := r.anchor = .none ∧ f.base = some base ∧ f.path = base ++ r

/-- The file has no base that contains it. -/
def Stray (f : StyleFile) : Prop := ∀ base, f.base = some base → ¬ base.Contains f.path

/-- The second file is the first one elsewhere: at the same relative path below a base of its own, or again with no
base that contains it and with the same bare name. -/
inductive Moved (f g : StyleFile) : Prop where
  | below {base base' r : Path} (hf : f.StandsAt base r) (hg : g.StandsAt base' r)
  | stray (hf : f.Stray) (hg : g.Stray) (hname : f.path.bareName = g.path.bareName)

theorem relative_of_standsAt (h : f.StandsAt base r) : f.relative = r := by
  rw [relative, h.2.1, h.2.2, Option.bind_some, Path.below?_append h.1]
  rfl

theorem relative_of_stray (h : f.Stray) : f.relative = f.path.bareName := by
  have hnone : (f.base.bind fun b => b.below? f.path) = none := by
    rw [Option.bind_eq_none_iff]
    exact fun b hb => Path.below?_eq_none_iff.2 (h b hb)
  rw [relative, hnone]
  rfl

theorem stray_iff : f.Stray ↔ ∀ base r, ¬ f.StandsAt base r := by
  constructor
  · rintro h base r ⟨hr, hbase, hpath⟩
    refine h base hbase ?_
    rw [hpath, Path.append_of_relative hr]
    exact ⟨rfl, List.prefix_append _ _⟩
  · rintro h base hbase ⟨hanchor, names, hnames⟩
    refine h base ⟨.none, names⟩ ⟨rfl, hbase, ?_⟩
    rw [Path.append_of_relative rfl, hnames, hanchor]

theorem Moved.relative_eq (h : f.Moved g) : f.relative = g.relative := by
  cases h with
  | below hf hg => rw [relative_of_standsAt hf, relative_of_standsAt hg]
  | stray hf hg hname => rw [relative_of_stray hf, relative_of_stray hg, hname]

end StyleFile

theorem Pipeline.ignoresFile_congr (p : Pipeline) {f g : StyleFile} (h : f.relative = g.relative) :
    p.ignoresFile f = p.ignoresFile g := by rw [ignoresFile, ignoresFile, h]

namespace Target

variable {files files' : List StyleFile} {f g : StyleFile} {directory : Path} {s : Text}

theorem below_congr (h : f.relative = g.relative) : below directory f = below directory g := by
  rw [below, below, h]

theorem below_of_isStem (hs : Path.IsStem f.relative.name s) (h : f.relative.names ≠ []) :
    below directory f =
      .ok (some ⟨directory.anchor, directory.names ++ (f.relative.parent.names ++ [s ++ compiledExt])⟩) := by
  obtain ⟨x, hx, s', hs', rfl⟩ := exists_below directory h
  have hsame : s ++ compiledExt = s' ++ compiledExt := by
    rw [← Path.nameWithExtension_of_isStem hs, ← Path.nameWithExtension_of_isStem hs']
  rw [hx, hsame]

theorem allBelow_congr (h : files.map StyleFile.relative = files'.map StyleFile.relative) :
    allBelow directory files = allBelow directory files' := by
  induction files generalizing files' with
  | nil =>
    obtain rfl := List.map_eq_nil_iff.1 h.symm
    rfl
  | cons f files ih =>
    obtain ⟨g, files', rfl, hg, hrest⟩ := List.map_eq_cons_iff.1 h.symm
    rw [allBelow, allBelow, below_congr hg, ih hrest.symm]

theorem assign_congr (h : files.map StyleFile.relative = files'.map StyleFile.relative) (output : Text)
    (outputDir : Option Text) : assign output outputDir files = assign output outputDir files' := by
  have hlength : files.length = files'.length := by simpa using congrArg List.length h
  unfold assign
  split
  · exact allBelow_congr h
  · rw [hlength, List.map_const', List.map_const', hlength]

end Target

namespace CommandLine

variable {o : Options} {p : Pipeline} {files files' : List StyleFile} {f : StyleFile} {targets : List Target}

theorem targetsFor_congr (h : files.map StyleFile.relative = files'.map StyleFile.relative) :
    targetsFor o files = targetsFor o files' := by
  have hlength : files.length = files'.length := by simpa using congrArg List.length h
  unfold targetsFor
  split
  · exact Target.assign_congr h _ _
  · rw [hlength, Target.assign_congr h]

theorem targetsFor_singleton {out s : Text} (hout : outputDirOf o = some out) (hnames : f.relative.names ≠ [])
    (hs : Path.IsStem f.relative.name s) : targetsFor o [f] =
      .ok [some (.ofText out ++ ⟨.none, f.relative.parent.names ++ [s ++ Target.compiledExt]⟩)] := by
  rw [targetsFor_of_outputDir hout, Target.allBelow, Target.below_of_isStem hs hnames, Path.append_of_relative rfl]
  rfl

/-- The run has a plan for the inputs, with these targets in order. -/
def Plans (o : Options) (files : List StyleFile) (targets : List Target) : Prop :=
  ∃ jobs, planFor o files = .ok (.ok jobs) ∧ jobs.map Prod.snd = targets

/-- A plan is refused for two reasons only, and neither has to do with where the inputs come from. -/
theorem plans_iff : Plans o files targets ↔
    ¬ (1 < files.length ∧ (outputDirOf o).isNone ∧ o.output ≠ .text Options.standard) ∧
      targetsFor o files = .ok targets ∧ (targets.filterMap id).Nodup := by
  constructor
  · rintro ⟨jobs, h, rfl⟩
    refine ⟨fun hseveral => ?_, (planFor_eq_ok h).2, ?_⟩
    · simp [planFor, hseveral] at h
    · rw [List.filterMap_map]
      exact nodup_of_planFor h
  · rintro ⟨hseveral, htargets, hnodup⟩
    have hl := length_targetsFor htargets
    have hsnd : (files.zip targets).map Prod.snd = targets := List.map_snd_zip (by omega)
    have hclash : Target.clash? files targets = none := by
      rw [← hsnd, List.filterMap_map] at hnodup
      exact Target.clashAfter_eq_none_iff.2 ⟨hnodup, by simp⟩
    refine ⟨files.zip targets, ?_, hsnd⟩
    rw [planFor, if_neg hseveral, htargets]
    simp [hclash, bind, Except.bind, pure, Except.pure]

theorem plans_congr (h : files.map StyleFile.relative = files'.map StyleFile.relative) :
    Plans o files targets ↔ Plans o files' targets := by
  have hlength : files.length = files'.length := by simpa using congrArg List.length h
  rw [plans_iff, plans_iff, targetsFor_congr h, hlength]

theorem map_relative_of_moved (h : List.Forall₂ StyleFile.Moved files files') :
    files.map StyleFile.relative = files'.map StyleFile.relative := by
  induction h with
  | nil => rfl
  | cons hmoved _ ih => rw [List.map_cons, List.map_cons, hmoved.relative_eq, ih]

theorem moved_wanted (p : Pipeline) (h : List.Forall₂ StyleFile.Moved files files') :
    List.Forall₂ StyleFile.Moved (wanted p files) (wanted p files') := by
  refine List.rel_filter (fun f g hmoved => ?_) h
  simp only [p.ignoresFile_congr hmoved.relative_eq]

/-- A file at a relative path below its base is judged and placed by that path, wherever the base lies: two such
files have the same relative path, are both ignored or not, and have the same target. Inputs that are moved with their
bases are kept and planned as before. A file without a base, or with one that does not contain it name by name, is
judged and placed by its bare name. There are no other files. -/
theorem relocation (p : Pipeline) (o : Options) :
    (∀ f g P Q r, f.StandsAt P r → g.StandsAt Q r →
      f.relative = r ∧ g.relative = r ∧ p.ignoresFile f = p.ignoresFile g ∧ targetsFor o [f] = targetsFor o [g] ∧
      ∀ out s, outputDirOf o = some out → r.names ≠ [] → Path.IsStem r.name s →
        targetsFor o [g] = .ok [some (.ofText out ++ ⟨.none, r.parent.names ++ [s ++ Target.compiledExt]⟩)]) ∧
    (∀ files files', List.Forall₂ StyleFile.Moved files files' →
      targetsFor o files = targetsFor o files' ∧ List.Forall₂ StyleFile.Moved (wanted p files) (wanted p files') ∧
      ∀ targets, Plans o (wanted p files) targets ↔ Plans o (wanted p files') targets) ∧
    (∀ f : StyleFile, f.Stray → f.relative = f.path.bareName ∧
      p.ignoresFile f = (p.passIgnored && Ignore.ignores p.matchers false f.path.bareName.text) ∧
      ∀ out s, outputDirOf o = some out → f.path.names ≠ [] → Path.IsStem f.path.name s →
        targetsFor o [f] = .ok [some (.ofText out ++ ⟨.none, [s ++ Target.compiledExt]⟩)]) ∧
    ∀ f : StyleFile, f.Stray ↔ ∀ P r, ¬ f.StandsAt P r := by
  refine ⟨?_, ?_, ?_, fun f => StyleFile.stray_iff⟩
  · intro f g P Q r hf hg
    have hfr := StyleFile.relative_of_standsAt hf
    have hgr := StyleFile.relative_of_standsAt hg
    have hsame : f.relative = g.relative := hfr.trans hgr.symm
    refine ⟨hfr, hgr, p.ignoresFile_congr hsame, targetsFor_congr (by simp [hsame]), ?_⟩
    intro out s hout hnames hs
    rw [← hgr] at hnames hs ⊢
    exact targetsFor_singleton hout hnames hs
  · intro files files' h
    have hwanted := moved_wanted p h
    have hrelative := map_relative_of_moved hwanted
    exact ⟨targetsFor_congr (map_relative_of_moved h), hwanted, fun targets => plans_congr hrelative⟩
  · intro f hf
    have hr := StyleFile.relative_of_stray hf
    refine ⟨hr, by rw [Pipeline.ignoresFile, hr], ?_⟩
    intro out s hout hnames hs
    obtain ⟨names, n, hn⟩ := (List.eq_nil_or_concat' f.path.names).resolve_left hnames
    have hbare : f.path.bareName = ⟨.none, [n]⟩ := by simp [Path.bareName, hn]
    have hname : f.path.name = n := by simp [Path.name, hn]
    rw [hbare] at hr
    rw [hname] at hs
    have hout' := targetsFor_singleton (f := f) hout (by simp [hr]) (by simpa [hr, Path.name] using hs)
    simpa [hr, Path.parent] using hout'

/-- A base with an ignored name, and a file that leaves it again: the base is of no account, and the target leaves the
output directory in the same way. A base whose text the path only begins with is none. -/
theorem relocation_leaves_base :
    let named : Matcher := ⟨"_*".toList, [⟨false, .parts [.anyAbove, .segment [.exactly '_', .anyRun], .boundary]⟩]⟩
    let p : Pipeline := ⟨.usual, Compiler.identity, [named], true, true, []⟩
    let o : Options := { Options.default with outputDir := some (.text "out".toList) }
    let file (path base : Text) : StyleFile := ⟨Path.ofText path, .empty, Codec.utf8Name, some (Path.ofText base)⟩
    let f := file "/srv/_site/../b/a.tar.less".toList "/srv/_site".toList
    let g := file "w/../b/a.tar.less".toList "w".toList
    let stray := file "/a/src2/_x.less".toList "/a/src".toList
    Matcher.compileAll ["_*".toList] = .ok p.matchers ∧ f.Moved g ∧ stray.Stray ∧
      p.ignoresFile f = false ∧ p.ignoresFile g = false ∧ p.ignoresFile stray = true ∧
      targetsFor o [f] = .ok [some (Path.ofText "out/../b/a.tar.css".toList)] ∧
      targetsFor o [g] = .ok [some (Path.ofText "out/../b/a.tar.css".toList)] ∧
      targetsFor o [stray] = .ok [some (Path.ofText "out/_x.css".toList)] := by
  intro named p o file f g stray
  obtain ⟨hpair, -, hstray, -⟩ := relocation p o
  have hf : f.StandsAt (Path.ofText "/srv/_site".toList) (Path.ofText "../b/a.tar.less".toList) :=
    ⟨by decide +kernel, rfl, by decide +kernel⟩
  have hg : g.StandsAt (Path.ofText "w".toList) (Path.ofText "../b/a.tar.less".toList) :=
    ⟨by decide +kernel, rfl, by decide +kernel⟩
  have houtside : ¬ (Path.ofText "/a/src".toList).Contains stray.path :=
    Path.below?_eq_none_iff.1 (by decide +kernel)
  have hs : stray.Stray := fun base hbase => Option.some.inj hbase ▸ houtside
  have hcut (s : Text) (hne : s ≠ []) : Path.IsStem (s ++ ".less".toList) s := .cut hne (by simp) (by decide)
  obtain ⟨-, -, hignored, hsame, htarget⟩ := hpair f g _ _ _ hf hg
  obtain ⟨-, hignored', htarget'⟩ := hstray stray hs
  have hout := htarget "out".toList "a.tar".toList rfl (by decide +kernel) (hcut "a.tar".toList (by decide))
  have hout' := htarget' "out".toList "_x".toList rfl (by decide +kernel) (hcut "_x".toList (by decide))
  refine ⟨by decide +kernel, .below hf hg, hs, ?_, ?_, ?_, ?_, ?_, ?_⟩
  · exact hignored.trans (by decide +kernel)
  · decide +kernel
  · exact hignored'.trans (by decide +kernel)
  · exact hsame.trans (hout.trans (by decide +kernel))
  · exact hout.trans (by decide +kernel)
  · exact hout'.trans (by decide +kernel)

end CommandLine
end StyleShield
