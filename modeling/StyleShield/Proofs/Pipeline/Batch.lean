import StyleShield.Proofs.Pipeline.Process

/-! Files processed in turn. Each of them fares as it would alone, in a pipeline made for it, and the
first that fails ends the work with its fault (`processAll_isolated`). What a file alone comes to
depends on its contents: only a buffer that is a text and is not ignored reaches the compiler. -/
namespace StyleShield

namespace Pipeline

variable {codecs : Codecs} {p : Pipeline} {f : StyleFile} {files : List StyleFile} {c : Compiler} {o : Options}

/-- One file processed by a pipeline that is made for it. -/
def alone (codecs : Codecs) (c : Compiler) (o : Options) (f : StyleFile) : Run Outcome := do
  let p ← Run.ofExcept (build codecs (some c) o)
  p.process f

def eventsAlone (codecs : Codecs) (c : Compiler) (o : Options) (f : StyleFile) : List Event := (alone codecs c o f).events

def emittedAlone (codecs : Codecs) (c : Compiler) (o : Options) (f : StyleFile) : Option StyleFile :=
  match (alone codecs c o f).result with
  | .ok out => out.file? f
  | .error _ => none

/-- The file is processed without a fault. -/
def PassesAlone (codecs : Codecs) (c : Compiler) (o : Options) (f : StyleFile) : Prop := ∃ out, (alone codecs c o f).result = .ok out

theorem alone_eq (hp : build codecs (some c) o = .ok p) (f : StyleFile) : alone codecs c o f = p.process f := by
  rw [alone, hp, Run.ofExcept_ok_bind]

theorem processAll_cons_of_passes (hp : build codecs (some c) o = .ok p) (hf : PassesAlone codecs c o f)
    (files : List StyleFile) :
    p.processAll (f :: files) =
      ⟨(emittedAlone codecs c o f).toList ++ (p.processAll files).emitted,
        eventsAlone codecs c o f ++ (p.processAll files).events, (p.processAll files).failure⟩ := by
  obtain ⟨out, hout⟩ := hf
  have hemitted : emittedAlone codecs c o f = out.file? f := by rw [emittedAlone, hout]
  rw [hemitted, eventsAlone]
  rw [alone_eq hp] at hout ⊢
  simp only [processAll, hout]

theorem processAll_cons_of_error (hp : build codecs (some c) o = .ok p) {e : Fault}
    (hf : (alone codecs c o f).result = .error e) (files : List StyleFile) :
    p.processAll (f :: files) = ⟨[], eventsAlone codecs c o f, some e⟩ := by
  rw [eventsAlone]
  rw [alone_eq hp] at hf ⊢
  simp only [processAll, hf]

theorem processAll_append_of_passes (hp : build codecs (some c) o = .ok p) {done : List StyleFile}
    (hdone : ∀ f ∈ done, PassesAlone codecs c o f) (files : List StyleFile) :
    p.processAll (done ++ files) =
      ⟨done.filterMap (emittedAlone codecs c o) ++ (p.processAll files).emitted,
        done.flatMap (eventsAlone codecs c o) ++ (p.processAll files).events, (p.processAll files).failure⟩ := by
  induction done with
  | nil => rfl
  | cons f done ih =>
    rw [List.forall_mem_cons] at hdone
    rw [List.cons_append, processAll_cons_of_passes hp hdone.1, ih hdone.2]
    cases hf : emittedAlone codecs c o f <;> simp [hf]

theorem exists_first_error (hn : ¬ ∀ f ∈ files, PassesAlone codecs c o f) : ∃ done f later e,
    files = done ++ f :: later ∧ (∀ g ∈ done, PassesAlone codecs c o g) ∧ (alone codecs c o f).result = .error e := by
  induction files with
  | nil => simp at hn
  | cons f files ih =>
    cases hf : (alone codecs c o f).result with
    | error e => exact ⟨[], f, files, e, rfl, by simp, hf⟩
    | ok out =>
      have hpass : PassesAlone codecs c o f := ⟨out, hf⟩
      rw [List.forall_mem_cons, not_and] at hn
      obtain ⟨done, g, later, e, rfl, hdone, hg⟩ := ih (hn hpass)
      exact ⟨f :: done, g, later, e, rfl, List.forall_mem_cons.2 ⟨hpass, hdone⟩, hg⟩

theorem effects_eventsAlone (hp : build codecs (some c) o = .ok p) (hc : p.compiler.Quiet) (files : List StyleFile) :
    Event.effects (files.flatMap (eventsAlone codecs c o)) = files.flatMap p.calls := by
  have hf (f : StyleFile) : Event.effects (eventsAlone codecs c o f) = p.calls f := by
    rw [eventsAlone, alone_eq hp, effects_process hc]
  induction files with
  | nil => rfl
  | cons f files ih => rw [List.flatMap_cons, List.flatMap_cons, Event.effects_append, hf, ih]

/-- Files processed in turn come to what each comes to alone, in order. Either all pass; or the
first that fails is the last that is looked at, and its fault is that of the whole, whatever
files there are after it. The compiler is called once for each text among the files that are
looked at and not ignored, with the shielded text of that file. A file without contents gives
nothing, even if it is ignored, and an ignored one is given back; any other file that is no
buffer is refused, and faults of reading and compiling are those of the file. -/
theorem processAll_isolated (hc : c.Quiet) (hp : build codecs (some c) o = .ok p) (files : List StyleFile) :
    (((∀ f ∈ files, PassesAlone codecs c o f) ∧
        p.processAll files = ⟨files.filterMap (emittedAlone codecs c o), files.flatMap (eventsAlone codecs c o), none⟩ ∧
        Event.effects (p.processAll files).events = files.flatMap p.calls) ∨
      ∃ done f later e, files = done ++ f :: later ∧ (∀ g ∈ done, PassesAlone codecs c o g) ∧
        (alone codecs c o f).result = .error e ∧
        ∀ later', p.processAll (done ++ f :: later') = ⟨done.filterMap (emittedAlone codecs c o),
            (done ++ [f]).flatMap (eventsAlone codecs c o), some e⟩ ∧
          Event.effects (p.processAll (done ++ f :: later')).events = (done ++ [f]).flatMap p.calls) ∧
    ∀ f,
      (f.isNull = true → (alone codecs c o f).result = .ok .skipped ∧ emittedAlone codecs c o f = none) ∧
      (f.isNull = false → p.ignoresFile f = true →
        (alone codecs c o f).result = .ok .passed ∧ emittedAlone codecs c o f = some f) ∧
      (f.isNull = false → p.ignoresFile f = false →
        (f.isBuffer = false →
          alone codecs c o f = Run.fail (.input (if f.isStream then .streaming else .noContents f.path))) ∧
        (∀ e, f.isBuffer = true → f.text codecs = .error e → alone codecs c o f = Run.fail e) ∧
        ∀ s e, f.text codecs = .ok s → (c (Shield.extract p.ignoresImport s).text f.path).result = .error e →
          (alone codecs c o f).result = .error e) := by
  obtain ⟨rfl, rfl⟩ : p.codecs = codecs ∧ p.compiler = c := by
    obtain ⟨ms, -, rfl⟩ := build_some_eq_ok_iff.1 hp
    exact ⟨rfl, rfl⟩
  refine ⟨?_, fun f => ?_⟩
  · by_cases hall : ∀ f ∈ files, PassesAlone p.codecs p.compiler o f
    · have h := processAll_append_of_passes hp hall []
      simp only [List.append_nil, processAll] at h
      exact .inl ⟨hall, h, by rw [h, effects_eventsAlone hp hc]⟩
    · obtain ⟨done, f, later, e, rfl, hdone, he⟩ := exists_first_error hall
      have h (later' : List StyleFile) : p.processAll (done ++ f :: later') =
          ⟨done.filterMap (emittedAlone p.codecs p.compiler o), (done ++ [f]).flatMap (eventsAlone p.codecs p.compiler o), some e⟩ := by
        rw [processAll_append_of_passes hp hdone, processAll_cons_of_error hp he]
        simp
      exact .inr ⟨done, f, later, e, rfl, hdone, he, fun later' =>
        ⟨h later', by rw [h later', effects_eventsAlone hp hc]⟩⟩
  · simp only [emittedAlone, alone_eq hp]
    refine ⟨fun hn => ?_, fun hn hi => ?_, fun hn hi => ⟨fun hb => ?_, fun e hb he => ?_, fun s e hs he => ?_⟩⟩
    · obtain ⟨r, hr⟩ := process_of_isNull (p := p) hn
      simp [hr, Outcome.file?]
    · obtain ⟨r, hr⟩ := process_of_ignored hn hi
      simp [hr, Outcome.file?]
    · exact process_of_unbuffered hn hi hb
    · exact process_of_undecodable hb hi he
    · exact process_result_of_compiler_error hi hs he

/-- An ignored file without contents, an ignored stream, two files whose placeholders have the same
number, and a source that the compiler does not take; what comes after it is not looked at. -/
theorem processAll_stops_at_refused_source :
    let c : Compiler := fun source _ =>
      if source = ['x'] then Run.fail (.foreign "no".toList) else pure source
    let o : Options := ⟨["_*".toList], true, false, ".css".toList⟩
    let file (path : String) (contents : Contents) : StyleFile := ⟨.ofText path.toList, contents, "latin-1".toList, none⟩
    let buffer (s : String) : Contents := .buffer (Encoding.utf8Bytes s.toList)
    let empty := file "_e.less" .empty
    let stream := file "_s.less" (.stream [120])
    let first := file "a.less" (buffer "@import './b.less';")
    let second := file "c.less" (buffer "@import \"d.less\";")
    let refused := file "x.less" (buffer "x")
    let files := [empty, stream, first, second, refused, file "o.less" (.unreadable [])]
    let shielded := "css-light0\x7bdisplay:block\x7d".toList
    ∃ p, c.Quiet ∧ build .usual (some c) o = .ok p ∧ p.ignoresFile empty = true ∧
      (p.processAll files).emitted =
        [stream, file "a.less" (buffer "@import './b.css';"), file "c.less" (buffer "@import \"d.css\";")] ∧
      (p.processAll files).failure = some (.foreign "no".toList) ∧
      Event.effects (p.processAll files).events = [.compiled shielded first.path,
        .compiled shielded second.path, .compiled ['x'] refused.path] ∧
      ∃ done f later e, files = done ++ f :: later ∧ (alone .usual c o f).result = .error e ∧
        ∀ later', (p.processAll (done ++ f :: later')).failure = some e := by
  intro c o file buffer empty stream first second refused files shielded
  let named : Matcher := ⟨"_*".toList, [⟨false, .parts [.anyAbove, .segment [.exactly '_', .anyRun], .boundary]⟩]⟩
  let p : Pipeline := ⟨.usual, c, [named], true, false, ".css".toList⟩
  have hc : c.Quiet := by
    intro source path
    by_cases hs : source = ['x']
    · simp only [c, if_pos hs]
      exact Run.quiet_fail _
    · simp only [c, if_neg hs]
      exact Run.quiet_pure _
  have hms : Matcher.compileAll o.ignores = .ok p.matchers := by decide +kernel
  have hp : build .usual (some c) o = .ok p := build_some_eq_ok_iff.2 ⟨_, hms, rfl⟩
  have hfailure : (p.processAll files).failure = some (.foreign "no".toList) := by decide +kernel
  refine ⟨p, hc, hp, by decide +kernel, by decide +kernel, hfailure, by decide +kernel, ?_⟩
  rcases (processAll_isolated hc hp files).1 with ⟨-, hall, -⟩ | ⟨done, f, later, e, hfiles, -, he, hlater⟩
  · simp [hall] at hfailure
  · exact ⟨done, f, later, e, hfiles, he, fun later' => by rw [(hlater later').1]⟩

end Pipeline
end StyleShield
