import Mathlib.Data.List.Forall2
import StyleShield.CommandLine.Inputs
import StyleShield.Proofs.Discovery.Find
import StyleShield.Proofs.Run
import StyleShield.Proofs.Targets

/-! What is planned. Inputs hold the bytes of the tree as it is (`readInputs_eq_ok_iff`), and a path
that is not there or a file that cannot be read is a fault of the file system. A plan pairs the
inputs that are not ignored with their targets (`planFor_eq_ok`). -/
namespace StyleShield.CommandLine

variable {t : FileTree} {w : Workplace} {o : Options} {p : Pipeline} {found : List Found} {x : Found}
  {f : StyleFile} {files : List StyleFile} {targets : List Target}

def IsReadFrom (t : FileTree) (x : Found) (f : StyleFile) : Prop :=
  ∃ b, t.read [] x.path = .ok b ∧ f = ⟨x.path, .buffer b, Codec.utf8Name, some x.base⟩

theorem bufferOf_eq_ok_iff : bufferOf t x = .ok f ↔ IsReadFrom t x f := by
  unfold bufferOf IsReadFrom
  cases t.read [] x.path <;> simp [eq_comm]

theorem bufferAll_cons : bufferAll t (x :: found) =
    (bufferOf t x).bind fun f => (bufferAll t found).map (f :: ·) := by
  rw [bufferAll]
  cases bufferOf t x with
  | error e => rfl
  | ok f => cases bufferAll t found <;> rfl

theorem bufferAll_eq_ok_iff : bufferAll t found = .ok files ↔ List.Forall₂ (IsReadFrom t) found files := by
  induction found generalizing files with
  | nil => simp [bufferAll, eq_comm]
  | cons x found ih =>
    rw [bufferAll_cons, List.forall₂_cons_left_iff]
    simp only [← bufferOf_eq_ok_iff, ← ih]
    cases bufferOf t x with
    | error e => simp [Except.bind]
    | ok f => cases bufferAll t found <;> simp [Except.bind, Except.map, eq_comm]

theorem isSystem_of_read_error {cwd : Place} {q : Path} {e : Fault} (h : t.read cwd q = .error e) :
    e.isSystem = true := by
  unfold FileTree.read at h
  split at h <;> simp only [reduceCtorEq, Except.error.injEq] at h <;> exact h ▸ rfl

theorem bufferAll_of_unreadable (hx : x ∈ found) {e : Fault} (h : t.read [] x.path = .error e) :
    ∃ e', bufferAll t found = .error e' ∧ e'.isSystem = true := by
  induction found with
  | nil => simp at hx
  | cons y found ih =>
    rw [bufferAll_cons]
    cases hy : t.read [] y.path with
    | error e' => exact ⟨e', by simp [bufferOf, hy, Except.bind], isSystem_of_read_error hy⟩
    | ok b =>
      rcases List.mem_cons.1 hx with rfl | hx
      · simp [hy] at h
      · obtain ⟨e', he, hs⟩ := ih hx
        exact ⟨e', by simp [bufferOf, hy, he, Except.bind, Except.map], hs⟩

def pathsOf (o : Options) : List Text := o.files.filter (· ≠ Options.standard)

def discovered (w : Workplace) (o : Options) : Except Fault (List Found) :=
  if pathsOf o = [] then .ok []
  else Discovery.find w.tree w.cwd (pathsOf o) (o.includes.map (·.map Given.orEmpty))

/-- The standard input, once, if it is an input at all. -/
def standardInputs (w : Workplace) (o : Options) : List StyleFile :=
  if Options.standard ∈ o.files then [standardInput w] else []

theorem readInputs_eq (w : Workplace) (o : Options) : readInputs w o =
    (discovered w o).bind fun found => (bufferAll w.tree found).map (standardInputs w o ++ ·) := by
  have hread (r : Except Fault (List Found)) :
      (do
        let found ← r
        let files ← bufferAll w.tree found
        return standardInputs w o ++ files) =
      r.bind fun found => (bufferAll w.tree found).map (standardInputs w o ++ ·) := by
    cases r with
    | error e => rfl
    | ok found => cases h : bufferAll w.tree found <;> simp [Except.bind, Except.map, h, bind, pure, Except.pure]
  rw [← hread, discovered]
  change (if pathsOf o = [] then _ else _) = _
  by_cases hp : pathsOf o = []
  · rw [if_pos hp, if_pos hp]
    simp [bufferAll, standardInputs, bind, Except.bind, pure, Except.pure]
  · rw [if_neg hp, if_neg hp]
    rfl

/-- The standard input comes first; all else is read from the tree. -/
theorem readInputs_eq_ok_iff : readInputs w o = .ok files ↔ ∃ found read, discovered w o = .ok found ∧
    List.Forall₂ (IsReadFrom w.tree) found read ∧ files = standardInputs w o ++ read := by
  simp only [readInputs_eq, ← bufferAll_eq_ok_iff]
  cases discovered w o with
  | error e => simp [Except.bind]
  | ok found => cases h : bufferAll w.tree found <;> simp [Except.bind, Except.map, h, eq_comm]

theorem exists_isReadFrom {read : List StyleFile} (h : List.Forall₂ (IsReadFrom t) found read) (hf : f ∈ read) :
    ∃ x ∈ found, IsReadFrom t x f := by
  induction h with
  | nil => simp at hf
  | cons hx _ ih =>
    rcases List.mem_cons.1 hf with rfl | hf
    · exact ⟨_, List.mem_cons_self, hx⟩
    · obtain ⟨y, hy, hread⟩ := ih hf
      exact ⟨y, List.mem_cons_of_mem _ hy, hread⟩

theorem buffered_of_readInputs (h : readInputs w o = .ok files) (hf : f ∈ files) :
    f.isBuffer = true ∧ f.encoding = Codec.utf8Name := by
  obtain ⟨found, read, -, hread, rfl⟩ := readInputs_eq_ok_iff.1 h
  rcases List.mem_append.1 hf with hf | hf
  · unfold standardInputs at hf
    split at hf
    · obtain rfl := List.mem_singleton.1 hf
      exact ⟨rfl, rfl⟩
    · simp at hf
  · obtain ⟨x, -, b, -, rfl⟩ := exists_isReadFrom hread hf
    exact ⟨rfl, rfl⟩

/-- Wherever a path stands among the inputs, the plan fails if it is not there. -/
theorem readInputs_of_not_isThere {raw : Text} (hraw : raw ∈ pathsOf o)
    (hn : ¬ Discovery.IsThere w.tree w.cwd raw) : ∃ e, readInputs w o = .error e ∧
      ((∃ patterns, Glob.patternsOf (Discovery.includesOf (o.includes.map (·.map Given.orEmpty))) = .ok patterns) →
        e.isSystem = true) := by
  obtain ⟨e, he, hs⟩ := Discovery.find_error_of_not_isThere hraw hn
    (o.includes.map (·.map Given.orEmpty))
  refine ⟨e, ?_, hs⟩
  rw [readInputs_eq, discovered, if_neg (List.ne_nil_of_mem hraw), he]
  rfl

theorem readInputs_of_unreadable (hf : discovered w o = .ok found) (hx : x ∈ found) {e : Fault}
    (h : w.tree.read [] x.path = .error e) : ∃ e', readInputs w o = .error e' ∧ e'.isSystem = true := by
  obtain ⟨e', he, hs⟩ := bufferAll_of_unreadable hx h
  refine ⟨e', ?_, hs⟩
  rw [readInputs_eq, hf, Except.bind, he]
  rfl

/-- The inputs that are not ignored. -/
def wanted (p : Pipeline) (files : List StyleFile) : List StyleFile := files.filter fun f => !p.ignoresFile f

theorem keepWanted_result (p : Pipeline) (files : List StyleFile) :
    (keepWanted p files).result = .ok (wanted p files) := by
  induction files with
  | nil => rfl
  | cons f files ih =>
    by_cases hi : p.ignoresFile f = true
    · have hw : wanted p (f :: files) = wanted p files := by simp [wanted, hi]
      rw [keepWanted, if_pos hi, hw]
      simpa [Run.log] using ih
    · have hw : wanted p (f :: files) = f :: wanted p files := by simp [wanted, hi]
      rw [keepWanted, if_neg hi, hw, Run.map_eq, ih]
      rfl

theorem quiet_keepWanted (p : Pipeline) (files : List StyleFile) : (keepWanted p files).Quiet := by
  induction files with
  | nil => exact Run.quiet_pure _
  | cons f files ih =>
    rw [keepWanted]
    split
    · exact (Run.quiet_log _ _ _).bind fun _ => ih
    · exact ih.map _

theorem length_targetsFor (h : targetsFor o files = .ok targets) : targets.length = files.length := by
  unfold targetsFor at h
  split at h
  · exact Target.length_assign h
  · split at h
    · simp at h
    · exact Target.length_assign h

theorem planFor_of_several (hl : 1 < files.length) (hd : outputDirOf o = none)
    (ho : o.output ≠ .text Options.standard) : planFor o files = .ok (.error .severalInputs) := by
  rw [planFor, if_pos ⟨hl, by simp [hd], ho⟩]

theorem planFor_of_same_target (ht : targetsFor o files = .ok targets) {i j : Nat} {target : Path}
    (hij : i < j) (hi : targets[i]? = some (some target)) (hj : targets[j]? = some (some target)) :
    ∃ refusal, planFor o files = .ok (.error refusal) := by
  obtain ⟨c, hc⟩ := Target.clash?_of_getElem? (length_targetsFor ht) hij hi hj
  unfold planFor
  split
  · exact ⟨_, rfl⟩
  · rw [ht]
    exact ⟨.clash c, by simp [bind, Except.bind, hc, pure, Except.pure]⟩

theorem planFor_eq_ok {jobs : List (StyleFile × Target)} (h : planFor o files = .ok (.ok jobs)) :
    jobs.map Prod.fst = files ∧ targetsFor o files = .ok (jobs.map Prod.snd) := by
  unfold planFor at h
  split at h
  · simp at h
  · cases ht : targetsFor o files with
    | error e => simp [ht, bind, Except.bind] at h
    | ok targets =>
      have hl := length_targetsFor ht
      cases hc : Target.clash? files targets with
      | some c => simp [ht, hc, bind, Except.bind, pure, Except.pure] at h
      | none =>
        simp only [ht, hc, bind, Except.bind, pure, Except.pure, Except.ok.injEq] at h
        rw [← h]
        exact ⟨List.map_fst_zip (by omega), congrArg _ (List.map_snd_zip (by omega)).symm⟩

theorem nodup_of_planFor {jobs : List (StyleFile × Target)} (h : planFor o files = .ok (.ok jobs)) :
    (jobs.filterMap Prod.snd).Nodup := by
  unfold planFor at h
  split at h
  · simp at h
  · obtain ⟨targets, -, h⟩ := bind_eq_ok_iff.1 h
    cases hc : Target.clash? files targets with
    | some c => simp [hc, pure, Except.pure] at h
    | none =>
      simp only [hc, pure, Except.pure, Except.ok.injEq] at h
      exact h ▸ (Target.clashAfter_eq_none_iff.1 hc).1

theorem targetsFor_of_outputDir {directory : Text} (h : outputDirOf o = some directory) (files : List StyleFile) :
    targetsFor o files = Target.allBelow (.ofText directory) files := by
  have hassign (output : Text) : Target.assign output (some directory) files =
      Target.allBelow (.ofText directory) files := by
    unfold outputDirOf at h
    split at h
    · exact Option.some.inj h ▸ rfl
    · simp at h
  unfold targetsFor
  rw [h]
  split
  · exact hassign _
  · simpa using hassign _

theorem plan_of_error {e : Fault} (h : readInputs w o = .error e) : plan w o p = Run.fail e := by
  rw [plan, h, Run.ofExcept_error_bind]

theorem plan_result (h : readInputs w o = .ok files) :
    (plan w o p).result = planFor o (wanted p files) := by
  rw [plan, h, Run.ofExcept_ok_bind, Run.bind_ok (keepWanted_result p files)]
  rfl

theorem plan_eq_ok {jobs : List (StyleFile × Target)} (h : (plan w o p).result = .ok (.ok jobs)) :
    ∃ files, readInputs w o = .ok files ∧ jobs.map Prod.fst = wanted p files ∧
      targetsFor o (jobs.map Prod.fst) = .ok (jobs.map Prod.snd) := by
  cases hr : readInputs w o with
  | error e =>
    rw [plan_of_error hr] at h
    simp [Run.fail] at h
  | ok files =>
    rw [plan_result hr] at h
    obtain ⟨hfst, hsnd⟩ := planFor_eq_ok h
    exact ⟨files, rfl, hfst, by rw [hfst, hsnd]⟩

theorem quiet_plan (w : Workplace) (o : Options) (p : Pipeline) : (plan w o p).Quiet :=
  (Run.quiet_ofExcept _).bind fun files => (quiet_keepWanted p files).bind fun _ => Run.quiet_ofExcept _

end StyleShield.CommandLine
