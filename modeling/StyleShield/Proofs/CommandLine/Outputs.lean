import StyleShield.Proofs.CommandLine.Ending
import StyleShield.Proofs.CommandLine.Rebuild
import StyleShield.Proofs.Targets.Apart

/-! The outputs of a run below a directory. A step that goes well is one write at its target, so a run that returns 0
is a sequence of writes to different places. None of its targets is a directory on the way to another, since a file
stands at each in the end (`targets_apart`). -/
namespace StyleShield

open FileTree (spot pathOf)

namespace Target

variable {directory x y : Path}

/-- A path above another is a place above that of the other. -/
theorem IsBelow.spot_of_isAbove (hx : IsBelow directory x) (hy : IsBelow directory y) (h : IsAbove x y) (cwd : Place) :
    ∃ r, r ≠ [] ∧ spot cwd y = spot cwd x ++ r := by
  obtain ⟨names, m, hnames, hspot⟩ := hx.spot_eq cwd
  obtain ⟨names', m', hnames', hspot'⟩ := hy.spot_eq cwd
  obtain ⟨-, ⟨r, hr⟩, hne⟩ := h
  refine ⟨r, ?_, ?_⟩
  · rintro rfl
    exact hne (by simpa using hr)
  · rw [hnames, hnames'] at hr
    simp only [List.append_assoc, List.append_cancel_left_eq] at hr
    rw [hspot, hspot']
    simp only [List.append_assoc, hr]

theorem IsBelow.not_isAbove (hx : IsBelow directory x) (hy : IsBelow directory y) {t : FileTree} (ht : t.WellFormed)
    {cwd : Place} {b b' : Bytes} (hb : t.entryAt? (spot cwd x) = some (.file b))
    (hb' : t.entryAt? (spot cwd y) = some (.file b')) : ¬ IsAbove x y := by
  intro habove
  obtain ⟨r, hr, hspot⟩ := hx.spot_of_isAbove hy habove cwd
  rw [hspot] at hb'
  have hdirectory := FileTree.directory_of_append ht hr hb'
  simp [hb] at hdirectory

end Target

namespace CommandLine

variable {w : Workplace} {args : List Text} {o : Options} {choice : Compiler.Choice} {p : Pipeline} {cwd : Place}
  {t t' : FileTree} {compilerOn : FileTree → Compiler} {r : Run Unit} {x : Path} {out : Text}
  {jobs : List (StyleFile × Target)}

section Steps

theorem write_of_perform {job : StyleFile × Target} (hf : IsInput p job.1) (hx : job.2 = some x)
    (h : perform cwd p compilerOn t job = (t', r)) (hok : r.result = .ok ()) :
    ∃ b, t.write cwd x b = (t', none) ∧ .wrote x b ∈ r.events := by
  have hf' := hf.withTree compilerOn t
  rw [perform_withTree] at h
  rcases lands_or_fails hf' cwd t with ⟨d, t₁, rfl, hmade, hlands⟩ | ⟨e, t₁, hfails⟩
  · obtain ⟨rfl, rfl⟩ := Prod.mk.inj ((perform_of_lands hf' hmade hlands).symm.trans h)
    have htarget : d.target = some x := hx
    rw [Delivery.Lands, htarget] at hlands
    exact ⟨Encoding.utf8Bytes d.text, hlands, by simp [Delivery.record, Delivery.outputEvents, htarget]⟩
  · obtain ⟨-, rfl⟩ := Prod.mk.inj ((perform_of_fails hf' hfails).symm.trans h)
    simp at hok

theorem writes_of_performAll (hf : ∀ job ∈ jobs, IsInput p job.1) (htargets : ∀ job ∈ jobs, ∃ x, job.2 = some x)
    (h : performAll cwd p compilerOn t jobs = (t', r)) (hok : r.result = .ok ()) :
    ∃ ws : List (Path × Bytes), jobs.map Prod.snd = ws.map (some ∘ Prod.fst) ∧ FileTree.Writes cwd t ws t' ∧
      ∀ v ∈ ws, .wrote v.1 v.2 ∈ r.events := by
  induction jobs generalizing t r with
  | nil =>
    rw [performAll, Prod.mk.injEq] at h
    obtain ⟨rfl, -⟩ := h
    exact ⟨[], rfl, .nil t, by simp⟩
  | cons job jobs ih =>
    rw [List.forall_mem_cons] at hf htargets
    obtain ⟨x, hx⟩ := htargets.1
    cases hp : perform cwd p compilerOn t job with
    | mk t₁ first =>
      cases hrest : performAll cwd p compilerOn t₁ jobs with
      | mk t₂ rest =>
        simp only [performAll, hp, hrest] at h
        cases hfirst : first.result with
        | error e =>
          simp only [hfirst, Prod.mk.injEq] at h
          obtain ⟨-, rfl⟩ := h
          simp at hok
        | ok _ =>
          simp only [hfirst, Prod.mk.injEq] at h
          obtain ⟨rfl, rfl⟩ := h
          obtain ⟨b, hwrite, hevent⟩ := write_of_perform hf.1 hx hp hfirst
          obtain ⟨ws, hws, hwrites, hevents⟩ := ih hf.2 htargets.2 hrest hok
          refine ⟨(x, b) :: ws, by simp [hx, hws], .cons hwrite hwrites, List.forall_mem_cons.2 ⟨?_, fun v hv => ?_⟩⟩
          · exact List.mem_append_left _ hevent
          · exact List.mem_append_right _ (hevents v hv)

end Steps

/-- What a run has put out below a directory stands there in the end, each file at a place of its own. -/
theorem exists_outputs_of_returned_zero (hw : OnDisk w) (hs : Starts w args o choice p)
    (hout : outputDirOf o = some out) (hzero : (run w args).ending = .returned 0) :
    ∃ (jobs : List (StyleFile × Target)) (targets : List Path), (plan w o p).result = .ok (.ok jobs) ∧
      jobs.map Prod.snd = targets.map some ∧ targets.Nodup ∧ (∀ x ∈ targets, ∀ y ∈ targets, ¬ Target.IsAbove x y) ∧
      ∀ x ∈ targets, ∃ b, .wrote x b ∈ (run w args).events ∧
        (run w args).tree.entryAt? (spot w.cwd x) = some (.file b) := by
  obtain ⟨jobs, t, r, hplan, hperform, hr, hwork⟩ := exists_performed_of_returned_zero hs hzero
  obtain ⟨es, -, -, hevents, htree⟩ := run_of_starts hs
  rw [hwork] at hevents htree
  have hbelow := isBelow_of_outputDir hout hw hplan
  have htargets : ∀ job ∈ jobs, ∃ x, job.2 = some x := fun job hjob => (hbelow job hjob).imp fun _ hx => hx.1
  obtain ⟨ws, hws, hwrites, hwrote⟩ := writes_of_performAll (isInput_of_plan hplan) htargets hperform hr
  have hmap : jobs.map Prod.snd = (ws.map Prod.fst).map some := by rw [hws, List.map_map]
  -- The writes are to different places below the output directory, so none of them undoes another.
  have hbelow' : ∀ v ∈ ws, Target.IsBelow (.ofText out) v.1 := by
    intro v hv
    have hmem : some v.1 ∈ jobs.map Prod.snd := by
      rw [hws]
      exact List.mem_map_of_mem hv
    obtain ⟨job, hjob, hsnd⟩ := List.mem_map.1 hmem
    obtain ⟨x, hx, hb⟩ := hbelow job hjob
    obtain rfl := Option.some.inj (hsnd.symm.trans hx)
    exact hb
  have hnodup : (ws.map Prod.fst).Nodup := by
    obtain ⟨files, hfiles, -, -⟩ := plan_eq_ok hplan
    have hjobs := nodup_of_planFor ((plan_result hfiles).symm.trans hplan)
    have hsnd : jobs.filterMap Prod.snd = (jobs.map Prod.snd).filterMap id := by
      rw [List.filterMap_map]
      rfl
    rwa [hsnd, hmap, List.filterMap_map, Function.id_comp, List.filterMap_some] at hjobs
  obtain ⟨hregular, -, hwritten⟩ := hwrites.written hw.regular
    (fun v hv => (hbelow' v hv).isTarget (dot_not_mem_ofText out)) (nodup_spots hbelow' hnodup w.cwd)
  refine ⟨jobs, ws.map Prod.fst, hplan, hmap, hnodup, ?_, ?_⟩
  · intro x hx y hy
    obtain ⟨v, hv, rfl⟩ := List.mem_map.1 hx
    obtain ⟨v', hv', rfl⟩ := List.mem_map.1 hy
    exact (hbelow' v hv).not_isAbove (hbelow' v' hv') hregular.wellFormed (hwritten v hv).entry (hwritten v' hv').entry
  · intro x hx
    obtain ⟨v, hv, rfl⟩ := List.mem_map.1 hx
    refine ⟨v.2, ?_, htree ▸ (hwritten v hv).entry⟩
    rw [hevents]
    exact List.mem_append_right _ (List.mem_append_right _ (hwrote v hv))

/-- Found files get targets below any output directory. Without a clash no two targets are equal. One is above another
exactly if the other's file lies in a directory that has the name of its output, and then the tree has that directory.
A run that returns 0 has no such targets, and all that it has put out below its output directory is in place, as files
with the bytes that were written. -/
theorem targets_apart (ht : t.Regular) {paths : List Text} {includes : Option (List Text)} {found : List Found}
    (hfind : Discovery.find t cwd paths includes = .ok found) {files : List StyleFile}
    (hfiles : ∀ f ∈ files, ∃ x ∈ found, f.IsAt x) {dir : Text} (hdir : dir ≠ []) (output : Text) :
    (∃ targets : List Path, Target.assign output (some dir) files = .ok (targets.map some) ∧
      (Target.clash? files (targets.map some) = none → targets.Nodup) ∧
      ∀ job ∈ files.zip targets, ∀ job' ∈ files.zip targets,
        (Target.IsAbove job.2 job'.2 ↔ Target.NamesDirectoryOf job.1 job'.1) ∧
        (Target.IsAbove job.2 job'.2 → ∃ base s, job'.1.base = some (pathOf base) ∧
          Path.IsStem job.1.relative.name s ∧
          t.entryAt? (base ++ (job.1.relative.parent.names ++ [s ++ Target.compiledExt])) = some .directory)) ∧
    ∀ (w : Workplace) (args : List Text) (o : Options) (choice : Compiler.Choice) (p : Pipeline), OnDisk w →
      Starts w args o choice p → outputDirOf o = some dir → (run w args).ending = .returned 0 →
        ∃ (jobs : List (StyleFile × Target)) (targets : List Path), (plan w o p).result = .ok (.ok jobs) ∧
          jobs.map Prod.snd = targets.map some ∧ targets.Nodup ∧
          (∀ x ∈ targets, ∀ y ∈ targets, ¬ Target.IsAbove x y) ∧
          ∀ x ∈ targets, ∃ b, .wrote x b ∈ (run w args).events ∧
            (run w args).tree.entryAt? (spot w.cwd x) = some (.file b) := by
  have hlies := Discovery.exists_liesBelow ht hfind
  have hnames : ∀ f ∈ files, f.relative.names ≠ [] := by
    intro f hf
    obtain ⟨x, hx, hat⟩ := hfiles f hf
    obtain ⟨base, names, n, rfl, -⟩ := hlies x hx
    simp [hat.relative_eq]
  refine ⟨?_, fun w args o choice p hw hs hout hzero => exists_outputs_of_returned_zero hw hs hout hzero⟩
  obtain ⟨targets, hassign, hall⟩ := Target.exists_assign hdir hnames output
  have hout : ∀ job ∈ files.zip targets, Target.IsOutput (.ofText dir) job.1 job.2 := fun job hjob =>
    (List.forall₂_iff_zip.1 hall).2 hjob
  refine ⟨targets, hassign, (Target.clash?_eq_none_iff_nodup hall.length_eq.symm).1, fun job hjob job' hjob' => ?_⟩
  have hiff := (hout job hjob).isAbove_iff (hout job' hjob')
  refine ⟨hiff, fun habove => ?_⟩
  obtain ⟨x, hx, hat⟩ := hfiles job'.1 (List.of_mem_zip hjob').1
  obtain ⟨base, names, n, hlie⟩ := hlies x hx
  obtain ⟨s, hs, hdirectory⟩ := (hiff.1 habove).exists_directory ht.wellFormed hlie hat
  refine ⟨base, s, ?_, hs, hdirectory⟩
  rw [hat.2, hlie.1]

/-- A directory that has the name of a stylesheet, beside a file whose output has another name. -/
theorem targets_apart_stylesheet_directory :
    let w : Workplace := ⟨⟨[(["x.css".toList], .directory), (["x.css".toList, "y.less".toList], .file [49]),
      (["x.css.less".toList], .file [50])]⟩, [], [], Toml.usualRoom, fun _ _ => Compiler.identity⟩
    let found : List Found := [["x.css".toList, "y.less".toList], ["x.css.less".toList]].map
      fun q => ⟨pathOf q, pathOf []⟩
    let files : List StyleFile := found.map fun x => ⟨x.path, .empty, Codec.utf8Name, some x.base⟩
    let args := ["--compiler", "identity", "--output-dir", "out", "."].map String.toList
    w.tree.Regular ∧ Discovery.find w.tree [] [".".toList] none = .ok found ∧
      (∀ f ∈ files, ∃ x ∈ found, f.IsAt x) ∧ "out".toList ≠ [] ∧
      (∃ targets : List Path, Target.assign ['-'] (some "out".toList) files = .ok (targets.map some) ∧
        ∀ job ∈ files.zip targets, ∀ job' ∈ files.zip targets,
          Target.IsAbove job.2 job'.2 ↔ Target.NamesDirectoryOf job.1 job'.1) ∧
      OnDisk w ∧ (run w args).ending = .returned 0 ∧
      ∃ b b', (run w args).tree.entryAt? ["out".toList, "x.css".toList, "y.css".toList] = some (.file b) ∧
        (run w args).tree.entryAt? ["out".toList, "x.css.css".toList] = some (.file b') := by
  intro w found files args
  let p : Pipeline := ⟨.usual, Compiler.identity, [⟨"**/*".toList, [⟨false, .someChar⟩]⟩], false, true, []⟩
  let typed : Options.Typed := { Options.Typed.nothing with
    files := [".".toList], outputDir := some (.text "out".toList), compiler := some (.text "identity".toList) }
  let targets : List Path := ["out/x.css/y.css", "out/x.css.css"].map fun s => .ofText s.toList
  let jobs : List (StyleFile × Target) :=
    [(⟨pathOf ["x.css".toList, "y.less".toList], .buffer [49], Codec.utf8Name, some (pathOf [])⟩, targets[0]?),
      (⟨pathOf ["x.css.less".toList], .buffer [50], Codec.utf8Name, some (pathOf [])⟩, targets[1]?)]
  have hargs : Options.ofArguments args = .ok typed := by decide +kernel
  have hconf : (configure w typed).result = .ok typed.options := by cbv
  have hstarts : Starts w args typed.options .identity p :=
    ⟨typed, hargs, rfl, List.cons_ne_nil _ _, hconf, rfl⟩
  have ht : w.tree.Regular := ⟨by decide +kernel, by decide +kernel⟩
  have hw : OnDisk w := ⟨ht, by decide +kernel, rfl⟩
  have hfind : Discovery.find w.tree [] [".".toList] none = .ok found := by cbv
  have hfiles : ∀ f ∈ files, ∃ x ∈ found, f.IsAt x := by
    intro f hf
    obtain ⟨x, hx, rfl⟩ := List.mem_map.1 hf
    exact ⟨x, hx, rfl, rfl⟩
  have hread : readInputs w typed.options = .ok (jobs.map Prod.fst) := by cbv
  have hplan : (plan w typed.options p).result = .ok (.ok jobs) := (plan_result hread).trans (by decide +kernel)
  have hperform : (performAll w.cwd p (w.compilerFor .identity) w.tree jobs).2.result = .ok () := by cbv
  have hzero : (run w args).ending = .returned 0 := ending_of_takes (.done hstarts hplan hperform)
  have hdir : "out".toList ≠ [] := by decide
  obtain ⟨⟨targets', hassign, -, hiff⟩, hrun⟩ := targets_apart ht hfind hfiles hdir ['-']
  obtain ⟨jobs', outputs, hplan', houtputs, -, -, hplaces⟩ := hrun w args _ _ p hw hstarts rfl hzero
  obtain rfl := Except.ok.inj (Except.ok.inj (hplan.symm.trans hplan'))
  have hsnd : jobs.map Prod.snd = targets.map some := rfl
  obtain rfl := (List.map_inj_right fun _ _ => Option.some.inj).1 (hsnd.symm.trans houtputs)
  obtain ⟨b, -, hb⟩ := hplaces (.ofText "out/x.css/y.css".toList) (.head _)
  obtain ⟨b', -, hb'⟩ := hplaces (.ofText "out/x.css.css".toList) (.tail _ (.head _))
  exact ⟨ht, hfind, hfiles, hdir, ⟨targets', hassign, fun job hjob job' hjob' => (hiff job hjob job' hjob').1⟩, hw, hzero,
    b, b', hb, hb'⟩

/-- Targets that do not clash, one of which is the directory of the other. The run writes what is in the directory
and fails at the file. -/
theorem targets_above :
    let w : Workplace := ⟨⟨[(["b.css".toList], .directory), (["b.css".toList, "x.less".toList], .file [49]),
      (["b.less".toList], .file [50])]⟩, [], [], Toml.usualRoom, fun _ _ => Compiler.identity⟩
    let found : List Found := [["b.css".toList, "x.less".toList], ["b.less".toList]].map
      fun q => ⟨pathOf q, pathOf []⟩
    let files : List StyleFile := found.map fun x => ⟨x.path, .empty, Codec.utf8Name, some x.base⟩
    let targets : List Path := ["out/b.css/x.css", "out/b.css"].map fun s => .ofText s.toList
    let args := ["--compiler", "identity", "--output-dir", "out", "."].map String.toList
    w.tree.Regular ∧ Discovery.find w.tree [] [".".toList] none = .ok found ∧
      Target.assign ['-'] (some "out".toList) files = .ok (targets.map some) ∧
      Target.clash? files (targets.map some) = none ∧
      Target.IsAbove (.ofText "out/b.css".toList) (.ofText "out/b.css/x.css".toList) ∧
      (run w args).ending = .returned 2 := by
  intro w found files targets args
  let p : Pipeline := ⟨.usual, Compiler.identity, [⟨"**/*".toList, [⟨false, .someChar⟩]⟩], false, true, []⟩
  let typed : Options.Typed := { Options.Typed.nothing with
    files := [".".toList], outputDir := some (.text "out".toList), compiler := some (.text "identity".toList) }
  let jobs : List (StyleFile × Target) :=
    [(⟨pathOf ["b.css".toList, "x.less".toList], .buffer [49], Codec.utf8Name, some (pathOf [])⟩, targets[0]?),
      (⟨pathOf ["b.less".toList], .buffer [50], Codec.utf8Name, some (pathOf [])⟩, targets[1]?)]
  have hargs : Options.ofArguments args = .ok typed := by decide +kernel
  have hconf : (configure w typed).result = .ok typed.options := by cbv
  have hstarts : Starts w args typed.options .identity p :=
    ⟨typed, hargs, rfl, List.cons_ne_nil _ _, hconf, rfl⟩
  have hread : readInputs w typed.options = .ok (jobs.map Prod.fst) := by cbv
  have hplan : (plan w typed.options p).result = .ok (.ok jobs) := (plan_result hread).trans (by decide +kernel)
  have hperform : (performAll w.cwd p (w.compilerFor .identity) w.tree jobs).2.result =
      .error (.targetIsDirectory (.ofText "out/b.css".toList)) := by cbv
  refine ⟨⟨by decide +kernel, by decide +kernel⟩, by cbv, by decide +kernel, by decide +kernel, by decide +kernel, ?_⟩
  exact ending_of_takes (.performing hstarts hplan hperform)

end CommandLine
end StyleShield
