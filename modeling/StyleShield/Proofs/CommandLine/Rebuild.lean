import Mathlib.Data.List.Nodup
import StyleShield.Proofs.CommandLine.Trace
import StyleShield.Proofs.Discovery.Growth
import StyleShield.Proofs.Settings
import StyleShield.Proofs.Targets.Apart

/-! A run made twice. Where the output directory lies below the one input directory, beyond a
directory that is left out, what the first run writes is no input of the second and no settings
file. So the second run plans the same and writes every file as it is: it repeats the first in all
it says and leaves the tree alone (`run_again`). -/
namespace StyleShield.CommandLine

open FileTree (Plain spot pathOf)

/-- A workplace that can be on a disk without links: a regular tree in which no name is a dot, and a
current directory in it. -/
structure OnDisk (w : Workplace) : Prop where
  regular : w.tree.Regular
  undotted : w.tree.Undotted
  cwd : w.tree.entryAt? w.cwd = some .directory

def onTree (w : Workplace) (t : FileTree) : Workplace := { w with tree := t }

/-- One directory is the input, and there is an output directory below it, beyond one that is left
out. -/
structure BuildsInside (w : Workplace) (o : Options) (raw : Text) (R : Place) (out : Text) : Prop where
  files : o.files = [raw]
  standard : raw ≠ Options.standard
  root : w.tree.directoryAt? w.cwd (.ofText raw) = some R
  outputDir : outputDirOf o = some out
  inside : ∃ names, spot w.cwd (.ofText out) = R ++ names ∧ ∃ m ∈ names, m ∈ Discovery.excluded

variable {w : Workplace} {args : List Text} {o : Options} {p : Pipeline} {t : FileTree} {raw out : Text} {R : Place}
  {touched : Place → Prop} {f : StyleFile} {files : List StyleFile} {jobs : List (StyleFile × Target)}

section Outputs

/-- Places below a directory that end in a compiled name. -/
def Compiled (top q : Place) : Prop := ∃ names m, q = top ++ names ++ [m ++ Target.compiledExt]

theorem hidden_compiled {names : List Text} (h : ∃ m ∈ names, m ∈ Discovery.excluded) :
    Discovery.Hidden (Compiled (R ++ names)) R := by
  rintro ms n ⟨ns, m, he⟩
  have hms : ms = names ++ ns := by
    have happend : R ++ ms ++ [n] = R ++ (names ++ ns) ++ [m ++ Target.compiledExt] := by
      rw [he, List.append_assoc R names ns]
    exact List.append_cancel_left (List.append_inj' happend rfl).1
  obtain ⟨m', hm', hex⟩ := h
  exact ⟨m', hms ▸ List.mem_append_left _ hm', hex⟩

theorem not_compiled_fileName (top d : Place) : ∀ n ∈ Settings.fileNames, ¬ Compiled top (d ++ [n]) := by
  have hlast : ∀ n ∈ Settings.fileNames, n.getLast? = some 'l' := by decide
  rintro n hn ⟨names, m, he⟩
  have hname : n = m ++ Target.compiledExt := by simpa using (List.append_inj' he rfl).2
  have hl := hlast n hn
  rw [hname, Target.getLast?_compiled] at hl
  exact absurd hl (by decide)

theorem compiled_spot {x : Path} (h : Target.IsBelow (.ofText out) x) (cwd : Place) :
    Compiled (spot cwd (.ofText out)) (spot cwd x) := by
  obtain ⟨names, m, -, hspot⟩ := h.spot_eq cwd
  exact ⟨names, m, hspot⟩

theorem nodup_spots {ws : List (Path × Bytes)} {directory : Path} (h : ∀ v ∈ ws, Target.IsBelow directory v.1)
    (hn : (ws.map Prod.fst).Nodup) (cwd : Place) : (FileTree.spots cwd ws).Nodup := by
  have hspots : FileTree.spots cwd ws = (ws.map Prod.fst).map (spot cwd) := by
    rw [List.map_map]
    rfl
  rw [hspots]
  refine List.Nodup.map_on (fun x hx y hy he => ?_) hn
  obtain ⟨v, hv, rfl⟩ := List.mem_map.1 hx
  obtain ⟨v', hv', rfl⟩ := List.mem_map.1 hy
  exact (h v hv).spot_inj (h v' hv') he

theorem dot_not_mem_ofText (s : Text) : FileTree.dot ∉ (Path.ofText s).names := by
  simp [Path.ofText, Path.namesOf, FileTree.dot]

end Outputs

section Inputs

theorem isAt_of_isReadFrom {x : Found} (h : IsReadFrom t x f) : f.IsAt x := by
  obtain ⟨b, -, rfl⟩ := h
  exact ⟨rfl, rfl⟩

theorem readInputs_of_directory (h : BuildsInside w o raw R out) (ht : w.tree.Regular)
    (hr : readInputs w o = .ok files) : ∃ found, discovered w o = .ok found ∧
      List.Forall₂ (IsReadFrom w.tree) found files ∧
      ∀ x ∈ found, ∃ q patterns, x = ⟨pathOf q, pathOf R⟩ ∧ Discovery.Below w.tree patterns R q := by
  obtain ⟨found, read, hfound, hread, rfl⟩ := readInputs_eq_ok_iff.1 hr
  have hstandard : standardInputs w o = [] := by simp [standardInputs, h.files, h.standard.symm]
  have hpaths : pathsOf o = [raw] := by simp [pathsOf, h.files, h.standard]
  refine ⟨found, hfound, by rw [hstandard]; exact hread, fun x hx => ?_⟩
  rw [discovered, hpaths, if_neg (List.cons_ne_nil _ _)] at hfound
  cases hp : Glob.patternsOf (Discovery.includesOf (o.includes.map (·.map Given.orEmpty))) with
  | error e =>
    rw [Discovery.find, hp] at hfound
    exact absurd hfound (by simp [bind, Except.bind])
  | ok patterns =>
    obtain ⟨paths, hfind, -, hmem⟩ := Discovery.find_directory ht hp h.root
    obtain rfl := Except.ok.inj (hfound.symm.trans hfind)
    obtain ⟨path, hpath, rfl⟩ := List.mem_map.1 hx
    obtain ⟨q, rfl, hb⟩ := (hmem path).1 hpath
    exact ⟨q, patterns, rfl, hb⟩

theorem standardInput_isAt (w : Workplace) :
    (standardInput w).IsAt ⟨pathOf (w.cwd ++ [] ++ ["stdin".toList]), pathOf w.cwd⟩ := by
  rw [List.append_nil]
  exact ⟨rfl, rfl⟩

theorem exists_isAt_of_readInputs (hw : OnDisk w) (hr : readInputs w o = .ok files) (hf : f ∈ files) :
    ∃ base names n, f.IsAt ⟨pathOf (base ++ names ++ [n]), pathOf base⟩ ∧ Plain names := by
  obtain ⟨found, read, hfound, hread, rfl⟩ := readInputs_eq_ok_iff.1 hr
  rcases List.mem_append.1 hf with hf | hf
  · refine ⟨w.cwd, [], "stdin".toList, ?_, by simp [Plain]⟩
    unfold standardInputs at hf
    split at hf
    · obtain rfl := List.mem_singleton.1 hf
      exact standardInput_isAt w
    · simp at hf
  · obtain ⟨x, hx, hfrom⟩ := exists_isReadFrom hread hf
    unfold discovered at hfound
    split at hfound
    · obtain rfl := Except.ok.inj hfound
      simp at hx
    · obtain ⟨base, names, n, rfl, b, hb⟩ := Discovery.exists_liesBelow hw.regular hfound x hx
      have hplain : Plain (base ++ names ++ [n]) := FileTree.plain_of_entryAt? hw.undotted hb
      exact ⟨base, names, n, isAt_of_isReadFrom hfrom, fun m hm => hplain m (by simp [hm])⟩

theorem isBelow_of_outputDir (hout : outputDirOf o = some out) (hw : OnDisk w)
    (hplan : (plan w o p).result = .ok (.ok jobs)) :
    ∀ job ∈ jobs, ∃ x, job.2 = some x ∧ Target.IsBelow (.ofText out) x := by
  obtain ⟨files, hfiles, hfst, htargets⟩ := plan_eq_ok hplan
  rw [targetsFor_of_outputDir hout] at htargets
  have hbelow : ∀ job ∈ jobs, Target.below (.ofText out) job.1 = .ok job.2 := by
    have hall := Target.forall₂_allBelow htargets
    rwa [List.forall₂_map_left_iff, List.forall₂_map_right_iff, List.forall₂_same] at hall
  intro job hjob
  have hmem : job.1 ∈ files := (List.mem_filter.1 (hfst ▸ List.mem_map_of_mem hjob : job.1 ∈ wanted p files)).1
  obtain ⟨base, names, n, hat, hplain⟩ := exists_isAt_of_readInputs hw hfiles hmem
  exact Target.isBelow_of_below hat.relative_eq hplain (hbelow job hjob)

theorem isBelow_of_plan (h : BuildsInside w o raw R out) (hw : OnDisk w)
    (hplan : (plan w o p).result = .ok (.ok jobs)) :
    ∀ job ∈ jobs, ∃ x, job.2 = some x ∧ Target.IsBelow (.ofText out) x :=
  isBelow_of_outputDir h.outputDir hw hplan

end Inputs

section Growth

variable {t' : FileTree}

theorem readInputs_of_grows (h : BuildsInside w o raw R out) (hw : OnDisk w) (ht : t.Regular)
    (hg : FileTree.Grows touched w.tree t) (hidden : Discovery.Hidden touched R)
    (hr : readInputs w o = .ok files) : readInputs (onTree w t) o = .ok files := by
  obtain ⟨found, hfound, hread, hmem⟩ := readInputs_of_directory h hw.regular hr
  have hstandard : standardInputs (onTree w t) o = [] := by simp [standardInputs, h.files, h.standard.symm]
  have hpaths : pathsOf o = [raw] := by simp [pathsOf, h.files, h.standard]
  have hfound' : discovered (onTree w t) o = .ok found := by
    rw [← hfound, discovered, discovered, hpaths]
    exact congrArg (if [raw] = [] then Except.ok [] else ·)
      (Discovery.find_of_grows hg hw.regular ht h.root hidden _)
  have hread' : List.Forall₂ (IsReadFrom t) found files := by
    refine ((List.forall₂_and_left _ _).2 ⟨hmem, hread⟩).imp ?_
    rintro x f ⟨⟨q, patterns, rfl, hq⟩, b, hb, rfl⟩
    have hplain : Plain q := by
      obtain ⟨names, n, b', -, he, -⟩ := hq
      exact FileTree.plain_of_entryAt? hw.undotted he
    exact ⟨b, (hg.read_pathOf hw.regular ht hplain (hidden.not_touched hq)).2 hb, rfl⟩
  exact readInputs_eq_ok_iff.2 ⟨found, files, hfound', hread', by rw [hstandard]; rfl⟩

theorem plan_of_grows (h : BuildsInside w o raw R out) (hw : OnDisk w) (ht : t.Regular)
    (hg : FileTree.Grows touched w.tree t) (hidden : Discovery.Hidden touched R)
    (hr : readInputs w o = .ok files) : plan (onTree w t) o p = plan w o p := by
  rw [plan, plan, hr, readInputs_of_grows h hw ht hg hidden hr]

theorem configure_of_grows (hw : OnDisk w) (ht : t.Regular) (hg : FileTree.Grows touched w.tree t)
    (hn : ∀ d, ∀ n ∈ Settings.fileNames, ¬ touched (d ++ [n])) (typed : Options.Typed) :
    configure (onTree w t) typed = configure w typed := by
  have hcwd : Plain w.cwd := FileTree.plain_of_entryAt? hw.undotted hw.cwd
  have hfind : Settings.find w.room t w.cwd = Settings.find w.room w.tree w.cwd :=
    Settings.find_of_grows hg hw.regular ht hw.cwd hcwd hn
  unfold configure
  change (Run.ofExcept (Settings.find w.room t w.cwd) >>= _) = _
  rw [hfind]
  cases hf : Settings.find w.room w.tree w.cwd with
  | error e => rfl
  | ok found =>
    cases found with
    | none => rfl
    | some q =>
      have hload : Settings.load (w.room + 1) t q = Settings.load (w.room + 1) w.tree q :=
        Settings.load_of_grows hg hw.regular ht hcwd hn hf
      simp only [Run.ofExcept_ok_bind, onTree, hload]

theorem buildPipeline_onTree (hidentity : ∀ t, w.compilerFor .identity t = Compiler.identity)
    (h : Starts w args o .identity p) (t : FileTree) : buildPipeline (onTree w t) o = .ok (.identity, p) := by
  obtain ⟨typed, -, -, -, -, hbuild⟩ := h
  rw [buildPipeline_eq_ok_iff, hidentity] at hbuild
  rw [buildPipeline_eq_ok_iff]
  change ∃ name, _ ∧ _ ∧ Pipeline.build .usual (some (w.compilerFor .identity t)) _ = _ ∧ _
  rw [hidentity]
  exact hbuild

end Growth

section Again

/-- What has been delivered can be delivered again in its place. -/
theorem deliveries_again {ds : List Delivery} {t' : FileTree} (ht : t.Regular)
    (hds : ∀ d ∈ ds, ∃ x, d.target = some x ∧ Target.IsBelow (.ofText out) x)
    (hn : (ds.filterMap Delivery.target).Nodup) (h : Deliveries w.cwd p t ds t') :
    t'.Regular ∧ FileTree.Grows (Compiled (spot w.cwd (.ofText out))) t t' ∧ Deliveries w.cwd p t' ds t' := by
  let ws := ds.filterMap Delivery.write?
  have hfst : ws.map Prod.fst = ds.filterMap Delivery.target := by
    rw [List.map_filterMap]
    refine List.filterMap_congr fun d _ => ?_
    cases hd : d.target <;> simp [Delivery.write?, hd]
  have hbelow : ∀ w ∈ ws, Target.IsBelow (.ofText out) w.1 := by
    intro w hw
    obtain ⟨d, hd, hwrite⟩ := List.mem_filterMap.1 hw
    obtain ⟨x, hx, hb⟩ := hds d hd
    rw [Delivery.write?, hx] at hwrite
    exact Option.some.inj hwrite ▸ hb
  have htarget : ∀ w ∈ ws, FileTree.IsTarget w.1 := fun w hw => (hbelow w hw).isTarget (dot_not_mem_ofText out)
  have hnodup : (FileTree.spots w.cwd ws).Nodup := nodup_spots hbelow (hfst ▸ hn) w.cwd
  obtain ⟨hregular, hgrows, hwritten⟩ := h.writes.written ht htarget hnodup
  refine ⟨hregular, hgrows.mono fun q hq => ?_, h.again fun v hv => ?_⟩
  · obtain ⟨v, hv, rfl⟩ := List.mem_map.1 hq
    exact compiled_spot (hbelow v hv) w.cwd
  · exact FileTree.write_of_written hregular.linkFree (htarget v hv) (hwritten v hv)

theorem work_of_deliveries {choice : Compiler.Choice} {ds : List Delivery}
    (hcompiler : w.compilerFor choice = fun _ => p.compiler)
    (hplan : (plan w o p).result = .ok (.ok (ds.map Delivery.job))) (hds : Deliveries w.cwd p w.tree ds t) :
    work w o choice p = (.returned 0, (plan w o p).events ++ ds.flatMap (Delivery.record p), t) := by
  have hinput : ∀ d ∈ ds, IsInput p d.file := fun d hd => isInput_of_plan hplan d.job (List.mem_map_of_mem hd)
  have hperform : performAll w.cwd p (w.compilerFor choice) w.tree (ds.map Delivery.job) =
      (t, ⟨ds.flatMap (Delivery.record p), .ok ()⟩) := by
    rw [hcompiler]
    exact performAll_of_deliveries hinput hds
  exact work_of_performed hplan hperform rfl

theorem exists_deliveries_of_returned_zero {choice : Compiler.Choice}
    (hcompiler : w.compilerFor choice = fun _ => p.compiler) (hquiet : p.compiler.Quiet)
    (hs : Starts w args o choice p) (hzero : (run w args).ending = .returned 0) :
    ∃ ds : List Delivery, (plan w o p).result = .ok (.ok (ds.map Delivery.job)) ∧
      Deliveries w.cwd p w.tree ds (run w args).tree := by
  obtain ⟨jobs, t, r, hplan, hperform, hr, hwork⟩ := exists_performed_of_returned_zero hs hzero
  obtain ⟨es, -, -, -, htree⟩ := run_of_starts hs
  have ht : (run w args).tree = t := by rw [htree, hwork]
  rw [hcompiler] at hperform
  rcases performAll_cases (isInput_of_plan hplan) hquiet hperform with
    ⟨ds, rfl, hds, -⟩ | ⟨_, _, _, _, e, -, -, -, he, -⟩
  · exact ⟨ds, hplan, ht ▸ hds⟩
  · simp [he] at hr

/-- A run that starts is the same on another tree, if its parts are. -/
theorem run_onTree {choice : Compiler.Choice} (h : Starts w args o choice p)
    (hconf : ∀ typed, configure (onTree w t) typed = configure w typed)
    (hbuild : buildPipeline (onTree w t) o = .ok (choice, p))
    (hwork : work (onTree w t) o choice p = work w o choice p) : run (onTree w t) args = run w args := by
  obtain ⟨typed, hargs, hversion, hfiles, hconf', hbuild'⟩ := h
  simp [run, hargs, hversion, hfiles, hconf, hconf', hbuild, hbuild', hwork]

end Again

end StyleShield.CommandLine
