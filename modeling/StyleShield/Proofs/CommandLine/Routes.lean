import StyleShield.Proofs.CommandLine.Rebuild

/-! The ways an output can go. One input is put out on the standard output, in a file or below a
directory. Runs whose options differ at most in that do the same work, and whichever of them
succeeds puts out the bytes that the input was processed to (`routes_agree`); with links in the
tree, too. -/
namespace StyleShield

open FileTree (Puts nullDevice)

namespace FileTree

variable {t t' : FileTree} {cwd : Place} {x : Path} {b : Bytes}

/-- What is left by bytes that were written: they are the file at the place of the path, as it led when
they were written, and they are read back by it. Only a path that leads on from the place by too
many links cannot be read. -/
structure Received (t : FileTree) (cwd : Place) (x : Path) (b : Bytes) (t' : FileTree) : Prop where
  file : ∃ t₁ above n, Puts t cwd x t₁ above n ∧ t'.entryAt? (above ++ [n]) = some (.file b) ∧
    (t'.read cwd x = .ok b ∨ t₁.locate cwd x = .error .tooManyLinks)
  read : t.LinkFree → t'.read cwd x = .ok b

theorem received_of_write (ht : t.WellFormed) (hx : x ≠ nullDevice) (h : t.write cwd x b = (t', none)) :
    Received t cwd x b t' := by
  rcases write_cases t cwd x b with ⟨hdevice, -⟩ | ⟨t₂, f, hw, -⟩ | ⟨t₁, above, n, hputs, hw⟩
  · exact absurd hdevice hx
  · simp [hw] at h
  · rw [hw] at h
    obtain rfl := (Prod.mk.inj h).1
    have hread := hputs.read ht b
    refine ⟨⟨t₁, above, n, hputs, by rw [entryAt?_put (by simp), if_pos rfl], hread⟩, fun hl => ?_⟩
    exact hread.resolve_right (locate_ne_tooManyLinks (hputs.extended.linkFree hl) cwd x)

end FileTree

namespace CommandLine

variable {w : Workplace} {args : List Text} {o o' : Options} {choice : Compiler.Choice} {p : Pipeline}
  {f : StyleFile} {files : List StyleFile}

/-- Where the output of one input goes. -/
inductive Route where
  | standard
  | file (name : Text)
  | directory (name : Text)

namespace Route

/-- The route that options ask for. -/
def IsOf (o : Options) : Route → Prop
  | standard => outputDirOf o = none ∧ o.output = .text Options.standard
  | file name => outputDirOf o = none ∧ o.output = .text name ∧ name ≠ Options.standard
  | directory name => outputDirOf o = some name

/-- What is left of the output at the end of a route. -/
def Delivers (w : Workplace) (f : StyleFile) (r : Report) (b : Bytes) : Route → Prop
  | standard => Encoding.utf8Bytes r.printed = b ∧ r.tree = w.tree
  | file name => .wrote (.ofText name) b ∈ r.events ∧
    if .ofText name = nullDevice then r.tree = w.tree
    else FileTree.Received w.tree w.cwd (.ofText name) b r.tree
  | directory name => ∃ q, f.relative.withExtension? Target.compiledExt = some q ∧
    FileTree.Received w.tree w.cwd (.ofText name ++ q) b r.tree

def target (f : StyleFile) : Route → Except Fault Target
  | standard => .ok none
  | file name => .ok (some (.ofText name))
  | directory name => Target.below (.ofText name) f

end Route

section Options

/-- Options that differ at most in where the output goes. -/
def SameButOutput (o o' : Options) : Prop := o' = { o with output := o'.output, outputDir := o'.outputDir }

theorem readInputs_of_same (h : SameButOutput o o') : readInputs w o' = readInputs w o := by rw [h]; rfl

theorem buildPipeline_of_same (h : SameButOutput o o') : buildPipeline w o' = buildPipeline w o := by rw [h]; rfl

theorem targetsFor_of_route {route : Route} (h : route.IsOf o) :
    targetsFor o [f] = (route.target f).map fun target => [target] := by
  cases route with
  | standard =>
    obtain ⟨hd, ho⟩ := h
    simp [targetsFor, hd, ho, Target.assign, Route.target, Options.standard, Except.map]
  | file name =>
    obtain ⟨hd, ho, hn⟩ := h
    have hn' : name ≠ ['-'] := hn
    simp [targetsFor, hd, ho, hn', Target.assign, Route.target, Except.map]
  | directory name =>
    rw [targetsFor_of_outputDir h, Route.target, Target.allBelow]
    cases Target.below (.ofText name) f <;> rfl

end Options

section Deliveries

variable {c : Compiler.Choice → Compiler} {route : Route}

theorem exists_delivery_of_returned_zero (hw : w.compilerFor = fun choice _ => c choice)
    (hc : ∀ choice, (c choice).Quiet) (hs : Starts w args o choice p) (hread : readInputs w o = .ok files)
    (hone : wanted p files = [f]) (hroute : route.IsOf o) (hzero : (run w args).ending = .returned 0) :
    ∃ d : Delivery, d.file = f ∧ IsInput p f ∧ route.target f = .ok d.target ∧ d.IsMade p ∧
      d.Lands w.cwd w.tree (run w args).tree ∧ Event.effects (run w args).events = d.events p := by
  have hcompiler : w.compilerFor choice = fun _ => p.compiler := by rw [compiler_of_starts hs, hw]
  have hquiet : p.compiler.Quiet := by
    rw [compiler_of_starts hs, hw]
    exact hc choice
  obtain ⟨ds, hplan, hds⟩ := exists_deliveries_of_returned_zero hcompiler hquiet hs hzero
  obtain ⟨hfst, htargets⟩ := planFor_eq_ok ((plan_result hread).symm.trans hplan)
  rw [hone] at hfst htargets
  obtain ⟨d, rfl, hd⟩ : ∃ d, ds = [d] ∧ d.file = f := by
    rw [List.map_map, List.map_eq_singleton_iff] at hfst
    exact hfst
  have hinput : IsInput p d.file := isInput_of_plan hplan d.job (by simp)
  cases hds with
  | cons made lands rest =>
    cases rest
    refine ⟨d, hd, hd ▸ hinput, ?_, made, lands, ?_⟩
    · rw [targetsFor_of_route hroute] at htargets
      cases htarget : route.target f with
      | error e => simp [htarget, Except.map] at htargets
      | ok target => simpa [htarget, Except.map, Delivery.job] using htargets
    · obtain ⟨es, hes, -, hevents, -⟩ := run_of_starts hs
      have hplanned : Event.effects (plan w o p).events = [] := quiet_plan w o p
      have hwork := work_of_deliveries hcompiler hplan (.cons made lands (.nil _))
      rw [hevents, hwork]
      simp [hes, hplanned, effects_record hinput hquiet made]

theorem delivers_of_delivery {d : Delivery} (ht : w.tree.WellFormed) (htarget : route.target f = .ok d.target)
    (hzero : (run w args).ending = .returned 0) (hlands : d.Lands w.cwd w.tree (run w args).tree)
    (heffects : Event.effects (run w args).events = d.events p) :
    route.Delivers w f (run w args) (Encoding.utf8Bytes d.text) := by
  cases route with
  | standard =>
    have hnone : d.target = none := (Except.ok.inj htarget).symm
    refine ⟨?_, by simpa [Delivery.Lands, hnone] using hlands⟩
    rw [Report.printed_eq (by simp [hzero]), heffects]
    simp [Delivery.events, Delivery.output, hnone, callFor]
  | file name =>
    have hsome : d.target = some (.ofText name) := (Except.ok.inj htarget).symm
    have hwrite : w.tree.write w.cwd (.ofText name) (Encoding.utf8Bytes d.text) = ((run w args).tree, none) := by
      simpa [Delivery.Lands, hsome] using hlands
    constructor
    · have hmem : .wrote (.ofText name) (Encoding.utf8Bytes d.text) ∈ Event.effects (run w args).events := by
        simp [heffects, Delivery.events, Delivery.output, hsome]
      exact (List.mem_filter.1 hmem).1
    · split
      · rename_i hdevice
        rw [FileTree.write, if_pos hdevice] at hwrite
        exact (Prod.mk.inj hwrite).1.symm
      · rename_i hdevice
        exact FileTree.received_of_write ht hdevice hwrite
  | directory name =>
    obtain ⟨q, hq, hsome, hdevice⟩ := Target.below_eq_ok htarget
    have hwrite : w.tree.write w.cwd (.ofText name ++ q) (Encoding.utf8Bytes d.text) = ((run w args).tree, none) := by
      simpa [Delivery.Lands, hsome] using hlands
    exact ⟨q, hq, FileTree.received_of_write ht hdevice hwrite⟩

theorem returned_zero_iff_of_standard (hw : w.compilerFor = fun choice _ => c choice)
    (hc : ∀ choice, (c choice).Quiet) (hs : Starts w args o choice p) (hread : readInputs w o = .ok files)
    (hone : wanted p files = [f]) (hroute : Route.standard.IsOf o) :
    (run w args).ending = .returned 0 ↔ ∃ g, (p.process f).result = .ok (.compiled g) := by
  have hcompiler : w.compilerFor choice = fun _ => p.compiler := by rw [compiler_of_starts hs, hw]
  constructor
  · intro hzero
    obtain ⟨d, rfl, -, -, ⟨-, g, hg, -⟩, -⟩ := exists_delivery_of_returned_zero hw hc hs hread hone hroute hzero
    exact ⟨g, hg⟩
  · rintro ⟨g, hg⟩
    have hinput : IsInput p f := isInput_of_wanted hread (by simp [hone])
    obtain ⟨source, g', text, hsource, hcompiled, -, htext⟩ := text_of_process hinput hg
    obtain rfl := Pipeline.Outcome.compiled.inj hcompiled
    let d : Delivery := ⟨f, none, source, text⟩
    have htargets : targetsFor o [f] = .ok [none] := targetsFor_of_route hroute
    have hplan : (plan w o p).result = .ok (.ok [d.job]) := by
      rw [plan_result hread, hone, planFor, if_neg (by simp), htargets]
      rfl
    have hds : Deliveries w.cwd p w.tree [d] w.tree := .cons ⟨hsource, g, hg, htext⟩ rfl (.nil w.tree)
    have hwork := work_of_deliveries hcompiler hplan hds
    obtain ⟨es, -, hending, -, -⟩ := run_of_starts hs
    rw [hending, hwork]

/-- With compilers that depend on source and path alone, runs whose options differ at most in where
the output goes, and which have one input that is not ignored, put out the same bytes if they
return 0: the contents that the input is processed to. They are what is printed, what the output
file holds, or what is held below the output directory under the relative path of the input with
the extension of compiled files. -/
theorem routes_agree (hw : w.compilerFor = fun choice _ => c choice) (hc : ∀ choice, (c choice).Quiet)
    (ht : w.tree.WellFormed) (hs : Starts w args o choice p) (hread : readInputs w o = .ok files)
    (hone : wanted p files = [f]) {args' : List Text} {choice' : Compiler.Choice} {p' : Pipeline}
    (hs' : Starts w args' o' choice' p') (hsame : SameButOutput o o') (hroute : route.IsOf o')
    (hzero : (run w args').ending = .returned 0) :
    ∃ g b, (p.process f).result = .ok (.compiled g) ∧ g.contents = .buffer b ∧
      route.Delivers w f (run w args') b := by
  obtain ⟨typed, -, -, -, -, hbuild⟩ := hs
  obtain ⟨typed', -, -, -, -, hbuild'⟩ := id hs'
  rw [buildPipeline_of_same hsame] at hbuild'
  obtain ⟨rfl, rfl⟩ := Prod.mk.inj (Except.ok.inj (hbuild.symm.trans hbuild'))
  rw [← readInputs_of_same hsame] at hread
  obtain ⟨d, rfl, hinput, htarget, ⟨-, g, hg, htext⟩, hlands, heffects⟩ :=
    exists_delivery_of_returned_zero hw hc hs' hread hone hroute hzero
  exact ⟨g, _, hg, contents_of_process hinput hg htext, delivers_of_delivery ht htarget hzero hlands heffects⟩

/-- A text with a byte order mark, a null character and a lone carriage return, and outputs in a
directory that a link leads to. -/
theorem routes_agree_through_link :
    let bytes : Bytes := [0xEF, 0xBB, 0xBF, 0, 13, 0xC3, 0xA9]
    let w : Workplace := ⟨⟨[(["a.less".toList], .file bytes), (["d".toList], .directory),
      (["l".toList], .link ['d'])]⟩, [], [], Toml.usualRoom, fun _ _ => Compiler.identity⟩
    let args := ["--compiler", "identity", "a.less"].map String.toList
    let argsFile := ["--compiler", "identity", "a.less", "-o", "l/o.css"].map String.toList
    let argsDirectory := ["--compiler", "identity", "a.less", "--output-dir", "l"].map String.toList
    ((run w args).ending = .returned 0 ∧ (run w argsFile).ending = .returned 0 ∧
      (run w argsDirectory).ending = .returned 0) ∧
    Encoding.utf8Bytes (run w args).printed = bytes ∧
      (run w argsFile).tree.read w.cwd (.ofText "l/o.css".toList) = .ok bytes ∧
      (run w argsDirectory).tree.read w.cwd (.ofText "l/a.css".toList) = .ok bytes := by
  intro bytes w args argsFile argsDirectory
  let p : Pipeline := ⟨.usual, Compiler.identity, [⟨"**/*".toList, [⟨false, .someChar⟩]⟩], false, true, []⟩
  let f : StyleFile := ⟨FileTree.pathOf ["a.less".toList], .buffer bytes, Codec.utf8Name, some (FileTree.pathOf [])⟩
  let typed : Options.Typed := { Options.Typed.nothing with
    files := ["a.less".toList], compiler := some (.text "identity".toList) }
  let typedFile : Options.Typed := { typed with output := some (.text "l/o.css".toList) }
  let typedDirectory : Options.Typed := { typed with outputDir := some (.text ['l']) }
  have ht : w.tree.WellFormed := by decide +kernel
  have hargs : Options.ofArguments args = .ok typed := by decide +kernel
  have hargsFile : Options.ofArguments argsFile = .ok typedFile := by decide +kernel
  have hargsDirectory : Options.ofArguments argsDirectory = .ok typedDirectory := by decide +kernel
  have hconf (typed : Options.Typed) : (configure w typed).result = .ok typed.options := by
    have hnone : Settings.find w.room w.tree w.cwd = .ok none := by cbv
    rw [configure, hnone, Run.ofExcept_ok_bind]
    rfl
  have hs : Starts w args typed.options .identity p := ⟨typed, hargs, rfl, List.cons_ne_nil _ _, hconf _, rfl⟩
  have hsFile : Starts w argsFile typedFile.options .identity p :=
    ⟨typedFile, hargsFile, rfl, List.cons_ne_nil _ _, hconf _, rfl⟩
  have hsDirectory : Starts w argsDirectory typedDirectory.options .identity p :=
    ⟨typedDirectory, hargsDirectory, rfl, List.cons_ne_nil _ _, hconf _, rfl⟩
  have hread : readInputs w typed.options = .ok [f] := by cbv
  have hone : wanted p [f] = [f] := by decide +kernel
  have hprocess : (p.process f).result = .ok (.compiled f) := by cbv
  have hzeroFile : (run w argsFile).ending = .returned 0 := by
    simp only [run, hargsFile]
    cbv
  have hzeroDirectory : (run w argsDirectory).ending = .returned 0 := by
    simp only [run, hargsDirectory]
    cbv
  -- The bytes of all three runs are those that the input is processed to.
  have hbytes {g : StyleFile} {b : Bytes} (hg : (p.process f).result = .ok (.compiled g)) (hb : g.contents = .buffer b) :
      b = bytes := by
    obtain rfl := Pipeline.Outcome.compiled.inj (Except.ok.inj (hprocess.symm.trans hg))
    exact (Contents.buffer.inj hb).symm
  have hreceived {x : Path} {b : Bytes} {t' : FileTree} (h : FileTree.Received w.tree w.cwd x b t')
      (hparents : w.tree.ensureDirectories w.cwd x.parent = (w.tree, none))
      (hlocate : w.tree.locate w.cwd x = .error .noEntry) : t'.read w.cwd x = .ok b := by
    obtain ⟨t₁, above, n, hputs, -, hread⟩ := h.file
    obtain rfl := (Prod.mk.inj (hputs.parents.symm.trans hparents)).1
    exact hread.resolve_right (by simp [hlocate])
  have hquiet : ∀ choice : Compiler.Choice, Compiler.identity.Quiet := fun _ => Compiler.quiet_identity
  have hstandard : Route.standard.IsOf typed.options := ⟨rfl, rfl⟩
  have hzero : (run w args).ending = .returned 0 :=
    (returned_zero_iff_of_standard rfl hquiet hs hread hone hstandard).2 ⟨f, hprocess⟩
  have hfile : (Route.file "l/o.css".toList).IsOf typedFile.options := ⟨rfl, rfl, by decide⟩
  have hdirectory : (Route.directory ['l']).IsOf typedDirectory.options := rfl
  refine ⟨⟨hzero, hzeroFile, hzeroDirectory⟩, ?_, ?_, ?_⟩
  · obtain ⟨g, b, hg, hb, hprinted, -⟩ := routes_agree rfl hquiet ht hs hread hone hs rfl hstandard hzero
    exact hprinted.trans (hbytes hg hb)
  · obtain ⟨g, b, hg, hb, -, hleft⟩ := routes_agree rfl hquiet ht hs hread hone hsFile rfl hfile hzeroFile
    rw [if_neg (by decide)] at hleft
    exact hbytes hg hb ▸ hreceived hleft (by cbv) (by cbv)
  · obtain ⟨g, b, hg, hb, q, hq, hleft⟩ := routes_agree rfl hquiet ht hs hread hone hsDirectory rfl hdirectory
      hzeroDirectory
    obtain rfl : Path.mk .none ["a.css".toList] = q := by
      have hname : f.relative.withExtension? Target.compiledExt = some ⟨.none, ["a.css".toList]⟩ := by decide +kernel
      exact Option.some.inj (hname.symm.trans hq)
    exact hbytes hg hb ▸ hreceived hleft (by cbv) (by cbv)

end Deliveries

end CommandLine
end StyleShield
