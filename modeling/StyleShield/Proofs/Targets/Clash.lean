import Mathlib.Data.List.Nodup
import StyleShield.Proofs.Path
import StyleShield.Proofs.Run
import StyleShield.Proofs.Targets

/-! Clashes of targets below a directory. A file's target keeps the parent of its relative path and the stem of
its last name, and nothing else (`IsOutput.eq_iff`). The clash that is reported is that of the first file whose
target was taken before, with the file that took it (`clashAfter_eq_some_iff`). Files without double dots in
their paths have their targets below the directory, and nothing but those is written there (`clash_exact`). -/
namespace StyleShield.Target

open FileTree (spot)

variable {files : List StyleFile} {directory x y : Path} {f g : StyleFile} {claimed : List (Path × StyleFile)}
  {jobs : List (StyleFile × Path)} {c : Clash} {targets : List Target} {e : Fault}

/-- Below a directory, the parent of the relative path and the stem of its last name. -/
def IsOutput (directory : Path) (f : StyleFile) (x : Path) : Prop :=
  ∃ s, Path.IsStem f.relative.name s ∧
    x = ⟨directory.anchor, directory.names ++ (f.relative.parent.names ++ [s ++ compiledExt])⟩

/-- Relative paths with the same parent, and with last names that have the same stem. -/
def SameOutput (f g : StyleFile) : Prop :=
  f.relative.parent = g.relative.parent ∧ ∃ s, Path.IsStem f.relative.name s ∧ Path.IsStem g.relative.name s

theorem exists_below (directory : Path) (h : f.relative.names ≠ []) :
    ∃ x, below directory f = .ok (some x) ∧ IsOutput directory f x := by
  obtain ⟨names, n, hn⟩ := (List.eq_nil_or_concat' f.relative.names).resolve_left h
  have hlast : f.relative.names.getLast? = some n := by simp [hn]
  have hname : f.relative.name = n := by simp [Path.name, hlast]
  obtain ⟨s, hs⟩ := Path.exists_isStem n
  have hext : f.relative.withExtension? compiledExt =
      some ⟨f.relative.anchor, f.relative.parent.names ++ [s ++ compiledExt]⟩ := by
    simp [Path.withExtension?, hlast, Path.nameWithExtension_of_isStem hs, Path.parent]
  refine ⟨⟨directory.anchor, directory.names ++ (f.relative.parent.names ++ [s ++ compiledExt])⟩, ?_, s, ?_, rfl⟩
  · unfold below
    rw [hext]
    exact congrArg (Except.ok ∘ some) (Path.append_of_relative (anchor_relative f))
  · rwa [hname]

theorem exists_allBelow (directory : Path) (h : ∀ f ∈ files, f.relative.names ≠ []) :
    ∃ targets : List Path, allBelow directory files = .ok (targets.map some) ∧
      List.Forall₂ (IsOutput directory) files targets := by
  induction files with
  | nil => exact ⟨[], rfl, .nil⟩
  | cons f files ih =>
    rw [List.forall_mem_cons] at h
    obtain ⟨x, hx, hout⟩ := exists_below directory h.1
    obtain ⟨targets, htargets, hall⟩ := ih h.2
    refine ⟨x :: targets, ?_, .cons hout hall⟩
    rw [allBelow, hx, htargets]
    rfl

theorem IsOutput.eq_iff (hf : IsOutput directory f x) (hg : IsOutput directory g y) : x = y ↔ SameOutput f g := by
  obtain ⟨s, hs, rfl⟩ := hf
  obtain ⟨s', hs', rfl⟩ := hg
  constructor
  · intro h
    have hnames := List.append_cancel_left (Path.mk.inj h).2
    obtain ⟨hparent, hlast⟩ := List.append_inj' hnames rfl
    obtain rfl : s = s' := List.append_cancel_right (List.singleton_inj.1 hlast)
    have hanchor : f.relative.parent.anchor = g.relative.parent.anchor :=
      (anchor_relative f).trans (anchor_relative g).symm
    have hpath : Path.mk f.relative.parent.anchor f.relative.parent.names =
        Path.mk g.relative.parent.anchor g.relative.parent.names := by rw [hanchor, hparent]
    exact ⟨hpath, s, hs, hs'⟩
  · rintro ⟨hparent, r, hr, hr'⟩
    have hsame : s ++ compiledExt = s' ++ compiledExt := by
      rw [← Path.nameWithExtension_of_isStem hs, ← Path.nameWithExtension_of_isStem hs',
        Path.nameWithExtension_of_isStem hr, Path.nameWithExtension_of_isStem hr']
    rw [hparent, hsame]

theorem IsOutput.unique {x y : Path} (hx : IsOutput directory f x) (hy : IsOutput directory f y) : x = y := by
  obtain ⟨s, hs, -⟩ := id hx
  exact (hx.eq_iff hy).2 ⟨rfl, s, hs, hs⟩

theorem below_eq_error_iff : below directory f = .error e ↔ f.relative.names = [] ∧ e = .emptyName f.relative := by
  by_cases h : f.relative.names = []
  · simp [below, Path.withExtension?, h, eq_comm]
  · obtain ⟨x, hx, -⟩ := exists_below directory h
    simp [h, hx]

theorem allBelow_eq_error_iff : allBelow directory files = .error e ↔
    ∃ before f after, files = before ++ f :: after ∧ (∀ g ∈ before, g.relative.names ≠ []) ∧ f.relative.names = [] ∧
      e = .emptyName f.relative := by
  have hfirst : allBelow directory files = .error e ↔ FailsFirst (below directory) files e := by
    refine eq_error_iff_failsFirst (fun e => by simp [allBelow]) fun f files e => ?_
    rw [allBelow]
    cases below directory f with
    | error e' => simp [bind, Except.bind]
    | ok x => cases allBelow directory files <;> simp [bind, Except.bind, pure, Except.pure]
  have hnamed (g : StyleFile) : (∃ x, below directory g = .ok x) ↔ g.relative.names ≠ [] := by
    by_cases h : g.relative.names = []
    · simp [below_eq_error_iff.2 ⟨h, rfl⟩, h]
    · obtain ⟨x, hx, -⟩ := exists_below directory h
      exact iff_of_true ⟨_, hx⟩ h
  simp only [hfirst, FailsFirst, hnamed, below_eq_error_iff]

theorem allBelow_eq_ok_iff : allBelow directory files = .ok targets ↔
    (∀ f ∈ files, f.relative.names ≠ []) ∧ ∃ xs, List.Forall₂ (IsOutput directory) files xs ∧ targets = xs.map some := by
  constructor
  · intro h
    have hnames : ∀ f ∈ files, f.relative.names ≠ [] := by
      have hbelow := forall₂_allBelow h
      clear h
      induction hbelow with
      | nil => simp
      | @cons f t files targets ht _ ih =>
        refine List.forall_mem_cons.2 ⟨fun hn => ?_, ih⟩
        simp [below_eq_error_iff.2 ⟨hn, rfl⟩] at ht
    obtain ⟨xs, hxs, hall⟩ := exists_allBelow directory hnames
    exact ⟨hnames, xs, hall, Except.ok.inj (h.symm.trans hxs)⟩
  · rintro ⟨hnames, xs, hall, rfl⟩
    obtain ⟨xs', hxs', hall'⟩ := exists_allBelow directory hnames
    rw [hxs', List.right_unique_forall₂' (fun _ _ _ hx hy => hx.unique hy) hall hall']

/-- The first job whose target was taken before, at the start or by a job of the list, and the one that took it.
All targets up to there are different, so it was taken once. -/
def IsFirstClash (claimed : List (Path × StyleFile)) (jobs : List (StyleFile × Path)) (c : Clash) : Prop :=
  ∃ before f after g, jobs = before ++ (f, c.target) :: after ∧
    (before.map Prod.snd ++ claimed.map Prod.fst).Nodup ∧
    ((c.target, g) ∈ claimed ∨ (g, c.target) ∈ before) ∧ c = ⟨g.path, f.path, c.target⟩

namespace IsFirstClash

theorem cons_of_taken (hn : (claimed.map Prod.fst).Nodup) (hg : (x, g) ∈ claimed) :
    IsFirstClash claimed ((f, x) :: jobs) c ↔ c = ⟨g.path, f.path, x⟩ := by
  constructor
  · rintro ⟨before, f', after, g', hjobs, hnodup, hg', hc⟩
    rcases before with _ | ⟨job, before⟩
    · obtain ⟨rfl, rfl⟩ := Prod.mk.inj (List.cons.inj hjobs).1
      have hsame := List.inj_on_of_nodup_map hn hg (hg'.resolve_right (by simp)) rfl
      rw [hc, (Prod.mk.inj hsame).2]
    · obtain ⟨rfl, -⟩ := List.cons.inj hjobs
      have hfresh := (List.nodup_cons.1 hnodup).1
      exact absurd (List.mem_append_right _ (List.mem_map_of_mem hg)) hfresh
  · rintro rfl
    exact ⟨[], f, jobs, g, rfl, hn, .inl hg, rfl⟩

theorem cons_of_free (hfree : x ∉ claimed.map Prod.fst) :
    IsFirstClash claimed ((f, x) :: jobs) c ↔ IsFirstClash ((x, f) :: claimed) jobs c := by
  have hmiddle (before : List (StyleFile × Path)) :
      (((f, x) :: before).map Prod.snd ++ claimed.map Prod.fst).Nodup ↔
        (before.map Prod.snd ++ ((x, f) :: claimed).map Prod.fst).Nodup := List.perm_middle.nodup_iff.symm
  constructor
  · rintro ⟨before, f', after, g, hjobs, hnodup, hg, hc⟩
    rcases before with _ | ⟨job, before⟩
    · obtain ⟨rfl, rfl⟩ := Prod.mk.inj (List.cons.inj hjobs).1
      exact absurd (List.mem_map_of_mem (hg.resolve_right (by simp))) hfree
    · obtain ⟨rfl, rfl⟩ := List.cons.inj hjobs
      refine ⟨before, f', after, g, rfl, (hmiddle before).1 hnodup, ?_, hc⟩
      rcases hg with hg | hg
      · exact .inl (List.mem_cons_of_mem _ hg)
      · rcases List.mem_cons.1 hg with hg | hg
        · obtain ⟨rfl, hx⟩ := Prod.mk.inj hg
          exact .inl (by simp [hx])
        · exact .inr hg
  · rintro ⟨before, f', after, g, rfl, hnodup, hg, hc⟩
    refine ⟨(f, x) :: before, f', after, g, rfl, (hmiddle before).2 hnodup, ?_, hc⟩
    rcases hg with hg | hg
    · rcases List.mem_cons.1 hg with hg | hg
      · obtain ⟨hx, rfl⟩ := Prod.mk.inj hg
        exact .inr (by simp [hx])
      · exact .inl hg
    · exact .inr (List.mem_cons_of_mem _ hg)

end IsFirstClash

theorem clashAfter_eq_some_iff (hn : (claimed.map Prod.fst).Nodup) :
    clashAfter claimed (jobs.map (Prod.map id some)) = some c ↔ IsFirstClash claimed jobs c := by
  induction jobs generalizing claimed with
  | nil => simp [clashAfter, IsFirstClash]
  | cons job jobs ih =>
    obtain ⟨f, x⟩ := job
    cases hfind : claimed.find? fun c => c.1 = x with
    | some taken =>
      obtain ⟨x', g⟩ := taken
      obtain rfl : x' = x := by simpa using List.find?_some hfind
      have hclash : clashAfter claimed (((f, x') :: jobs).map (Prod.map id some)) = some ⟨g.path, f.path, x'⟩ := by
        simp [clashAfter, hfind]
      rw [hclash, IsFirstClash.cons_of_taken hn (List.mem_of_find?_eq_some hfind), Option.some.injEq, eq_comm]
    | none =>
      have hfree : x ∉ claimed.map Prod.fst := by
        intro hx
        obtain ⟨a, ha, rfl⟩ := List.mem_map.1 hx
        simpa using List.find?_eq_none.1 hfind a ha
      have hstep : clashAfter claimed (((f, x) :: jobs).map (Prod.map id some)) =
          clashAfter ((x, f) :: claimed) (jobs.map (Prod.map id some)) := by simp [clashAfter, hfind]
      have hn' : (((x, f) :: claimed).map Prod.fst).Nodup := List.nodup_cons.2 ⟨hfree, hn⟩
      rw [hstep, ih hn', IsFirstClash.cons_of_free hfree]

theorem clash?_eq_some_iff_isFirstClash {targets : List Path} :
    clash? files (targets.map some) = some c ↔ IsFirstClash [] (files.zip targets) c := by
  have hempty : (([] : List (Path × StyleFile)).map Prod.fst).Nodup := List.nodup_nil
  rw [clash?, List.zip_map_right, clashAfter_eq_some_iff hempty]

theorem clash?_eq_some_iff {targets : List Path} : clash? files (targets.map some) = some c ↔
    ∃ before f after g, files.zip targets = before ++ (f, c.target) :: after ∧ (before.map Prod.snd).Nodup ∧
      (g, c.target) ∈ before ∧ c = ⟨g.path, f.path, c.target⟩ := by
  rw [clash?_eq_some_iff_isFirstClash]
  simp [IsFirstClash]

theorem clash?_eq_none_iff_nodup {targets : List Path} (h : targets.length = files.length) :
    clash? files (targets.map some) = none ↔ targets.Nodup := by
  rw [clash?_eq_none_iff (by simpa using h), List.pairwise_map]
  refine List.Pairwise.iff fun x y => ?_
  simp [eq_comm]

theorem names_relative_subset (f : StyleFile) : f.relative.names ⊆ f.path.names := by
  unfold StyleFile.relative
  cases hb : f.base.bind fun b => b.below? f.path with
  | none =>
    intro n hn
    exact List.mem_of_getLast? (by simpa [Path.bareName] using hn)
  | some r =>
    obtain ⟨b, -, hr⟩ := Option.bind_eq_some_iff.1 hb
    unfold Path.below? at hr
    split at hr
    · obtain rfl := Option.some.inj hr
      exact List.drop_subset _ _
    · simp at hr

theorem IsOutput.goes_down (h : IsOutput directory f x) (hdots : FileTree.dotDot ∉ f.path.names) :
    ∃ r : Path, x = directory ++ r ∧ r.anchor = .none ∧ FileTree.dotDot ∉ r.names := by
  obtain ⟨s, -, rfl⟩ := h
  have happend : directory ++ (⟨.none, f.relative.parent.names ++ [s ++ compiledExt]⟩ : Path) =
      ⟨directory.anchor, directory.names ++ (f.relative.parent.names ++ [s ++ compiledExt])⟩ :=
    Path.append_of_relative rfl
  refine ⟨_, happend.symm, rfl, ?_⟩
  intro hmem
  rcases List.mem_append.1 hmem with hmem | hmem
  · exact hdots (names_relative_subset f (List.dropLast_subset _ hmem))
  · exact (plain_compiled s).2 (List.mem_singleton.1 hmem).symm

theorem prefix_spot {r : Path} (hr : r.anchor = .none) (hdots : FileTree.dotDot ∉ r.names) (cwd : Place) :
    spot cwd directory <+: spot cwd (directory ++ r) := by
  rw [Path.append_of_relative hr]
  show FileTree.follow _ _ <+: FileTree.follow (FileTree.startOf cwd directory) (directory.names ++ r.names)
  rw [FileTree.follow_append]
  exact FileTree.prefix_follow hdots

/-- Writing to such an output changes no file and makes none outside the directory. -/
theorem IsOutput.write_frame (h : IsOutput directory f x) (hdots : FileTree.dotDot ∉ f.path.names) {t : FileTree}
    (ht : t.Regular) (cwd : Place) (b : Bytes) : (t.write cwd x b).1.Regular ∧
      FileTree.Grows (fun q => spot cwd directory <+: q) t (t.write cwd x b).1 := by
  obtain ⟨r, rfl, hr, hdown⟩ := h.goes_down hdots
  obtain ⟨hregular, hgrows⟩ := FileTree.write_frame ht cwd (directory ++ r) b
  refine ⟨hregular, hgrows.mono fun q hq => ?_⟩
  rw [hq]
  exact prefix_spot hr hdown cwd

theorem map_text_clash?_eq_some_iff {targets : List Path} {message : Text} :
    (clash? files (targets.map some)).map Clash.text = some message ↔ ∃ before f after g x,
      files.zip targets = before ++ (f, x) :: after ∧ (before.map Prod.snd).Nodup ∧ (g, x) ∈ before ∧
        message = g.path.text ++ " and ".toList ++ f.path.text ++ " would both be written to ".toList ++ x.text := by
  rw [Option.map_eq_some_iff]
  constructor
  · rintro ⟨c, hc, rfl⟩
    obtain ⟨before, f, after, g, hzip, hnodup, hg, hclash⟩ := clash?_eq_some_iff.1 hc
    exact ⟨before, f, after, g, c.target, hzip, hnodup, hg, congrArg Clash.text hclash⟩
  · rintro ⟨before, f, after, g, x, hzip, hnodup, hg, rfl⟩
    exact ⟨⟨g.path, f.path, x⟩, clash?_eq_some_iff.2 ⟨before, f, after, g, hzip, hnodup, hg, rfl⟩, rfl⟩

theorem exists_file_of_output {targets : List Path} (h : List.Forall₂ (IsOutput directory) files targets)
    (hx : x ∈ targets) : ∃ f ∈ files, IsOutput directory f x := by
  have hsnd : (files.zip targets).map Prod.snd = targets := List.map_snd_zip (Nat.le_of_eq h.length_eq.symm)
  rw [← hsnd] at hx
  obtain ⟨job, hjob, rfl⟩ := List.mem_map.1 hx
  exact ⟨job.1, (List.of_mem_zip hjob).1, (List.forall₂_iff_zip.1 h).2 hjob⟩

/-- Files whose relative paths have a last name get their targets below the directory. There is no clash exactly if
the targets are different. Two of them are the same exactly if the relative paths have the same parent and last
names with the same stem. The message of a clash names the first file whose target was taken before, after the one
that took it, and the target. Without double dots in the paths of the files, all targets go down from the
directory, and writing to them changes no file and makes none elsewhere. -/
theorem clash_exact {dir : Text} (hdir : dir ≠ []) (hnames : ∀ f ∈ files, f.relative.names ≠ []) (output : Text) :
    ∃ targets : List Path, assign output (some dir) files = .ok (targets.map some) ∧
      List.Forall₂ (IsOutput (Path.ofText dir)) files targets ∧
      (clash? files (targets.map some) = none ↔ targets.Nodup) ∧
      (∀ job ∈ files.zip targets, ∀ job' ∈ files.zip targets, job.2 = job'.2 ↔ SameOutput job.1 job'.1) ∧
      (∀ message, (clash? files (targets.map some)).map Clash.text = some message ↔ ∃ before f after g x,
        files.zip targets = before ++ (f, x) :: after ∧ (before.map Prod.snd).Nodup ∧ (g, x) ∈ before ∧
          message = g.path.text ++ " and ".toList ++ f.path.text ++ " would both be written to ".toList ++ x.text) ∧
      ((∀ f ∈ files, FileTree.dotDot ∉ f.path.names) → ∀ x ∈ targets,
        (∃ r : Path, x = Path.ofText dir ++ r ∧ r.anchor = .none ∧ FileTree.dotDot ∉ r.names) ∧
        ∀ (t : FileTree) (cwd : Place) (b : Bytes), t.Regular →
          (t.write cwd x b).1.Regular ∧
            FileTree.Grows (fun q => spot cwd (Path.ofText dir) <+: q) t (t.write cwd x b).1) := by
  obtain ⟨targets, htargets, hall⟩ := exists_allBelow (Path.ofText dir) hnames
  have hassign : assign output (some dir) files = .ok (targets.map some) := by
    cases dir with
    | nil => exact absurd rfl hdir
    | cons c dir => exact htargets
  have hjob : ∀ job ∈ files.zip targets, IsOutput (Path.ofText dir) job.1 job.2 := fun job hjob =>
    (List.forall₂_iff_zip.1 hall).2 hjob
  refine ⟨targets, hassign, hall, clash?_eq_none_iff_nodup hall.length_eq.symm,
    fun job hj job' hj' => (hjob job hj).eq_iff (hjob job' hj'), fun message => map_text_clash?_eq_some_iff,
    fun hdots x hx => ?_⟩
  obtain ⟨f, hf, hout⟩ := exists_file_of_output hall hx
  exact ⟨hout.goes_down (hdots f hf), fun t cwd b ht => hout.write_frame (hdots f hf) ht cwd b⟩

/-- Of a name with two extensions only the last one goes. A name that starts with its only dot has none, so it
clashes with a longer one from elsewhere, and not with the one in between. -/
theorem clash_exact_hidden :
    let file (path : Text) (base : Option Text) : StyleFile :=
      ⟨Path.ofText path, .empty, Codec.utf8Name, base.map Path.ofText⟩
    let first := file "/p/.hidden".toList (some "/p".toList)
    let second := file "/p/a.tar.less".toList (some "/p".toList)
    let third := file "/q/.hidden.scss".toList none
    let files := [first, second, third]
    let targets := ["out/.hidden.css".toList, "out/a.tar.css".toList, "out/.hidden.css".toList].map Path.ofText
    "out".toList ≠ [] ∧ (∀ f ∈ files, f.relative.names ≠ []) ∧
      assign ['-'] (some "out".toList) files = .ok (targets.map some) ∧ SameOutput first third ∧
      (clash? files (targets.map some)).map Clash.text =
        some "/p/.hidden and /q/.hidden.scss would both be written to out/.hidden.css".toList := by
  intro file first second third files targets
  have hdir : "out".toList ≠ [] := by decide
  have hnames : ∀ f ∈ files, f.relative.names ≠ [] := by decide +kernel
  have hassign : assign ['-'] (some "out".toList) files = .ok (targets.map some) := by decide +kernel
  obtain ⟨targets', htargets, -, -, hsame, hmessage, -⟩ := clash_exact hdir hnames ['-']
  have hmap : targets.map some = targets'.map some := Except.ok.inj (hassign.symm.trans htargets)
  obtain rfl := (List.map_inj_right fun _ _ => Option.some.inj).1 hmap
  have hone : (first, Path.ofText "out/.hidden.css".toList) ∈ files.zip targets := .head _
  have hthree : (third, Path.ofText "out/.hidden.css".toList) ∈ files.zip targets := .tail _ (.tail _ (.head _))
  have hbefore : ([first, second].zip targets).map Prod.snd = targets.take 2 := rfl
  have hdistinct : (targets.take 2).Nodup := by decide +kernel
  refine ⟨hdir, hnames, hassign, (hsame _ hone _ hthree).1 rfl, (hmessage _).2 ?_⟩
  exact ⟨[first, second].zip targets, third, [], first, _, rfl, hbefore ▸ hdistinct, .head _, by decide +kernel⟩

end StyleShield.Target
