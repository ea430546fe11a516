import Mathlib.Data.List.Forall2
import StyleShield.Proofs.FileTree.Write
import StyleShield.Targets

/-! Targets one by one. Every file gets a target, and no clash is reported exactly if no two
files are to be written to one place (`clash?_eq_none_iff`). A target below a directory ends in the
extension of compiled files, and different targets are different places (`IsBelow.spot_inj`). -/
namespace StyleShield.Target

open FileTree (Plain spot)

variable {files : List StyleFile} {targets : List Target} {directory x y : Path}

theorem forall₂_allBelow (h : allBelow directory files = .ok targets) :
    List.Forall₂ (fun f t => below directory f = .ok t) files targets := by
  induction files generalizing targets with
  | nil =>
    obtain rfl := Except.ok.inj h
    exact .nil
  | cons f fs ih =>
    obtain ⟨t, ht, h⟩ := bind_eq_ok_iff.1 h
    obtain ⟨ts, hts, h⟩ := bind_eq_ok_iff.1 h
    obtain rfl := Except.ok.inj h
    exact .cons ht (ih hts)

theorem length_allBelow (h : allBelow directory files = .ok targets) : targets.length = files.length :=
  (forall₂_allBelow h).length_eq.symm

theorem length_assign {output : Text} {outputDir : Option Text}
    (h : assign output outputDir files = .ok targets) : targets.length = files.length := by
  unfold assign at h
  split at h
  · exact length_allBelow h
  · split at h
    · rename_i hone
      rw [← Except.ok.inj h, hone.1, List.length_singleton]
    · rw [← Except.ok.inj h, List.length_map]

theorem clashAfter_eq_none_iff {claimed : List (Path × StyleFile)} {jobs : List (StyleFile × Target)} :
    clashAfter claimed jobs = none ↔
      (jobs.filterMap Prod.snd).Nodup ∧ ∀ p ∈ jobs.filterMap Prod.snd, ∀ c ∈ claimed, c.1 ≠ p := by
  induction jobs generalizing claimed with
  | nil => simp [clashAfter]
  | cons job jobs ih =>
    obtain ⟨f, target⟩ := job
    cases target with
    | none => simpa [clashAfter] using ih
    | some t =>
      cases hc : claimed.find? fun c => c.1 = t with
      | some c =>
        have ht : c.1 = t := by simpa using List.find?_some hc
        have hm := List.mem_of_find?_eq_some hc
        simp only [clashAfter, hc, reduceCtorEq, false_iff, not_and]
        exact fun _ hall => hall t (by simp) c hm ht
      -- The target is free so far, and from here on it is taken.
      | none =>
        have hfree : ∀ c ∈ claimed, c.1 ≠ t := by simpa using hc
        have hcons : ((f, some t) :: jobs).filterMap Prod.snd = t :: jobs.filterMap Prod.snd := rfl
        simp only [clashAfter, hc, ih, hcons, List.nodup_cons, List.forall_mem_cons]
        constructor
        · rintro ⟨hn, hall⟩
          exact ⟨⟨fun ht => (hall t ht).1 rfl, hn⟩, hfree, fun p hp => (hall p hp).2⟩
        · rintro ⟨⟨ht, hn⟩, -, hall⟩
          refine ⟨hn, fun p hp => ⟨?_, hall p hp⟩⟩
          rintro rfl
          exact ht hp

theorem clash?_eq_none_iff (h : targets.length = files.length) :
    clash? files targets = none ↔ targets.Pairwise fun t t' => ∀ p, t = some p → t' ≠ some p := by
  have hsnd : (files.zip targets).map Prod.snd = targets := List.map_snd_zip (by omega)
  have hmap : (files.zip targets).filterMap Prod.snd = targets.filterMap id := by
    rw [← hsnd, List.filterMap_map, hsnd]
    rfl
  rw [clash?, clashAfter_eq_none_iff, hmap]
  simp only [List.not_mem_nil, false_implies, implies_true, and_true, List.Nodup, List.pairwise_filterMap, id_eq]
  refine List.Pairwise.iff fun t t' => ⟨fun ha p ht ht' => ha p ht p ht' rfl, fun ha p ht p' ht' he => ?_⟩
  exact ha p ht (he ▸ ht')

theorem clash?_of_getElem? (h : targets.length = files.length) {i j : Nat} {p : Path} (hij : i < j)
    (hi : targets[i]? = some (some p)) (hj : targets[j]? = some (some p)) :
    ∃ c, clash? files targets = some c := by
  rw [← Option.isSome_iff_exists, ← Option.ne_none_iff_isSome, ne_eq, clash?_eq_none_iff h,
    List.pairwise_iff_getElem]
  intro hall
  obtain ⟨hli, hti⟩ := List.getElem?_eq_some_iff.1 hi
  obtain ⟨hlj, htj⟩ := List.getElem?_eq_some_iff.1 hj
  exact hall i j hli hlj hij p hti htj

/-- A path that goes on from a directory by plain names and ends in the extension of compiled files. -/
def IsBelow (directory x : Path) : Prop :=
  ∃ names m, x = ⟨directory.anchor, directory.names ++ names ++ [m ++ compiledExt]⟩ ∧ Plain names

theorem exists_nameWithExtension (ext n : Text) : ∃ m, Path.nameWithExtension ext n = m ++ ext := by
  unfold Path.nameWithExtension
  split
  · exact ⟨_, rfl⟩
  · exact ⟨_, rfl⟩

theorem isBelow_of_below {f : StyleFile} {names : List Text} {n : Text} {t : Target}
    (hf : f.relative = ⟨.none, names ++ [n]⟩) (hn : Plain names) (h : below directory f = .ok t) :
    ∃ x, t = some x ∧ IsBelow directory x := by
  obtain ⟨m, hm⟩ := exists_nameWithExtension compiledExt n
  have hext : f.relative.withExtension? compiledExt = some ⟨.none, names ++ [m ++ compiledExt]⟩ := by
    simp [hf, Path.withExtension?, hm]
  simp only [below, hext, Except.ok.injEq] at h
  refine ⟨_, h.symm, names, m, ?_, hn⟩
  rw [Path.append_of_relative rfl, List.append_assoc]

theorem getLast?_compiled (m : Text) : (m ++ compiledExt).getLast? = some 's' := by
  simp [compiledExt]

theorem plain_compiled (m : Text) : m ++ compiledExt ≠ FileTree.dot ∧ m ++ compiledExt ≠ FileTree.dotDot := by
  constructor <;> intro h <;> simpa [compiledExt, FileTree.dot, FileTree.dotDot] using congrArg List.getLast? h

theorem ne_nullDevice_of_compiled {m : Text} (h : x.names.getLast? = some (m ++ compiledExt)) :
    x ≠ FileTree.nullDevice := by
  rintro rfl
  have hnull : FileTree.nullDevice.names.getLast? = some "null".toList := by decide
  have hname : m ++ compiledExt = "null".toList := Option.some.inj (h.symm.trans hnull)
  have hs := getLast?_compiled m
  rw [hname] at hs
  exact absurd hs (by decide)

theorem anchor_relative (f : StyleFile) : f.relative.anchor = .none := by
  unfold StyleFile.relative
  cases hb : f.base.bind fun b => b.below? f.path with
  | none => rfl
  | some r =>
    obtain ⟨b, -, hr⟩ := Option.bind_eq_some_iff.1 hb
    unfold Path.below? at hr
    split at hr
    · exact (Option.some.inj hr) ▸ rfl
    · simp at hr

theorem below_eq_ok {f : StyleFile} {t : Target} (h : below directory f = .ok t) :
    ∃ r, f.relative.withExtension? compiledExt = some r ∧ t = some (directory ++ r) ∧
      directory ++ r ≠ FileTree.nullDevice := by
  unfold below at h
  split at h
  · simp at h
  · rename_i r hr
    refine ⟨r, hr, (Except.ok.inj h).symm, ?_⟩
    unfold Path.withExtension? at hr
    split at hr
    · simp at hr
    · rename_i n hn
      obtain ⟨m, hm⟩ := exists_nameWithExtension compiledExt n
      obtain rfl := Option.some.inj hr
      refine ne_nullDevice_of_compiled (m := m) ?_
      have hanchor := anchor_relative f
      rw [Path.append_of_relative (by exact hanchor)]
      simp [hm]

namespace IsBelow

theorem isTarget (h : IsBelow directory x) (hd : FileTree.dot ∉ directory.names) : FileTree.IsTarget x := by
  obtain ⟨names, m, rfl, hn⟩ := h
  refine ⟨ne_nullDevice_of_compiled (m := m) (by simp), ?_, _, _, rfl, (plain_compiled m).2⟩
  · intro hdot
    rcases List.mem_append.1 hdot with hdot | hdot
    · rcases List.mem_append.1 hdot with hdot | hdot
      · exact hd hdot
      · exact (hn _ hdot).1 rfl
    · exact (plain_compiled m).1 (List.mem_singleton.1 hdot).symm

theorem spot_eq (h : IsBelow directory x) (cwd : Place) :
    ∃ names m, x.names = directory.names ++ names ++ [m ++ compiledExt] ∧
      spot cwd x = spot cwd directory ++ names ++ [m ++ compiledExt] := by
  obtain ⟨names, m, rfl, hn⟩ := h
  refine ⟨names, m, rfl, ?_⟩
  have hplain : Plain [m ++ compiledExt] := by simpa [Plain] using plain_compiled m
  have hstart : FileTree.startOf cwd ⟨directory.anchor, directory.names ++ names ++ [m ++ compiledExt]⟩ =
      FileTree.startOf cwd directory := rfl
  rw [spot, hstart, FileTree.follow_append, FileTree.follow_append, FileTree.follow_of_plain hn,
    FileTree.follow_of_plain hplain]
  rfl

theorem spot_inj (h : IsBelow directory x) (h' : IsBelow directory y) {cwd : Place}
    (he : spot cwd x = spot cwd y) : x = y := by
  obtain ⟨names, m, hx, hspot⟩ := h.spot_eq cwd
  obtain ⟨names', m', hy, hspot'⟩ := h'.spot_eq cwd
  rw [hspot, hspot', List.append_assoc, List.append_assoc, List.append_cancel_left_eq] at he
  have hnames : x.names = y.names := by rw [hx, hy, List.append_assoc, List.append_assoc, he]
  obtain ⟨_, _, rfl, _⟩ := h
  obtain ⟨_, _, rfl, _⟩ := h'
  exact congrArg (Path.mk directory.anchor) hnames

end IsBelow

end StyleShield.Target
