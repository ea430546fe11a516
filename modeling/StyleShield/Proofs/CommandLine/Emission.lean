import StyleShield.CommandLine.Emission
import StyleShield.Proofs.Codec
import StyleShield.Proofs.FileTree.Write
import StyleShield.Proofs.Pipeline.Process

/-! What is put out. One step delivers its input or fails (`perform_cases`); a run delivers its
inputs in order up to the first that fails (`performAll_cases`), and what is seen of it from
outside are the calls and outputs of the deliveries, and a last call if the failure came after
it. -/
namespace StyleShield

namespace CommandLine

variable {cwd : Place} {p : Pipeline} {t t' : FileTree} {f : StyleFile} {target : Target}

/-- An input of the work: bytes of UTF-8 text that are not ignored. -/
structure IsInput (p : Pipeline) (f : StyleFile) : Prop where
  buffered : f.isBuffer = true
  encoding : f.encoding = Codec.utf8Name
  wanted : p.ignoresFile f = false

def callFor (p : Pipeline) (f : StyleFile) (source : Text) : Event :=
  .compiled (Shield.extract p.ignoresImport source).text f.path

def callsFor (p : Pipeline) (f : StyleFile) : List Event :=
  match f.text p.codecs with
  | .ok source => [callFor p f source]
  | .error _ => []

/-- An input with its target and its text, and the text that is put out for it. -/
structure Delivery where
  file : StyleFile
  target : Target
  source : Text
  text : Text

namespace Delivery

def job (d : Delivery) : StyleFile × Target := (d.file, d.target)

def output (d : Delivery) : Event :=
  match d.target with
  | none => .printed d.text
  | some path => .wrote path (Encoding.utf8Bytes d.text)

def events (p : Pipeline) (d : Delivery) : List Event := [callFor p d.file d.source, d.output]

/-- What is put out is the text of the processed file. -/
def IsMade (p : Pipeline) (d : Delivery) : Prop :=
  d.file.text p.codecs = .ok d.source ∧
    ∃ g, (p.process d.file).result = .ok (.compiled g) ∧ g.text p.codecs = .ok d.text

/-- The tree after the output, if it can be made. -/
def Lands (cwd : Place) (t : FileTree) (d : Delivery) (t' : FileTree) : Prop :=
  match d.target with
  | none => t' = t
  | some path => t.write cwd path (Encoding.utf8Bytes d.text) = (t', none)

end Delivery

/-- Deliveries one after another, with the tree before and after them. -/
inductive Deliveries (cwd : Place) (p : Pipeline) : FileTree → List Delivery → FileTree → Prop
  | nil (t : FileTree) : Deliveries cwd p t [] t
  | cons {t t₁ t₂ : FileTree} {d : Delivery} {ds : List Delivery} (made : d.IsMade p)
      (lands : d.Lands cwd t t₁) (rest : Deliveries cwd p t₁ ds t₂) : Deliveries cwd p t (d :: ds) t₂

/-- The processing or the writing of an input fails. -/
inductive Fails (cwd : Place) (p : Pipeline) (t : FileTree) : StyleFile × Target → Fault → FileTree → Prop
  | processing {f : StyleFile} {target : Target} {e : Fault} (h : (p.process f).result = .error e) :
      Fails cwd p t (f, target) e t
  | writing {d : Delivery} {path : Path} {e : Fault} {t' : FileTree} (made : d.IsMade p)
      (target : d.target = some path) (h : t.write cwd path (Encoding.utf8Bytes d.text) = (t', some e)) :
      Fails cwd p t d.job e t'

/-- Whatever becomes of an input, there is one call for it if it has a text, and none otherwise. -/
theorem effects_process (hf : IsInput p f) (hc : p.compiler.Quiet) :
    Event.effects (p.process f).events = callsFor p f := by
  rw [Pipeline.effects_process hc, Pipeline.calls, if_neg (by simp [hf.wanted]), callsFor]
  rfl

theorem readsBack_of_input (hf : IsInput p f) (s : Text) : (p.codecs.named f.encoding).ReadsBack s := by
  rw [hf.encoding, Codecs.named_utf8]
  exact Codec.readsBack_utf8 s

theorem text_of_process (hf : IsInput p f) {out : Pipeline.Outcome} (h : (p.process f).result = .ok out) :
    ∃ source g text, f.text p.codecs = .ok source ∧ out = .compiled g ∧ g.encoding = Codec.utf8Name ∧
      g.text p.codecs = .ok text := by
  rcases Pipeline.process_result_eq_ok_iff.1 h with ⟨hn, -⟩ | ⟨-, hi, -⟩ | ⟨-, -, source, g, hs, hg, rfl⟩
  · simp [StyleFile.isNull_of_isBuffer hf.buffered] at hn
  · simp [hf.wanted] at hi
  · obtain ⟨compiled, text, -, -, hw⟩ := Pipeline.transform_result_eq_ok_iff.1 hg
    refine ⟨source, g, text, hs, rfl, ?_, StyleFile.text_of_withText (readsBack_of_input hf text) hw⟩
    obtain ⟨b, -, rfl⟩ := StyleFile.withText_eq_ok_iff.1 hw
    exact hf.encoding

theorem contents_of_process (hf : IsInput p f) {g : StyleFile} (h : (p.process f).result = .ok (.compiled g))
    {text : Text} (ht : g.text p.codecs = .ok text) : g.contents = .buffer (Encoding.utf8Bytes text) := by
  rcases Pipeline.process_result_eq_ok_iff.1 h with ⟨-, hout⟩ | ⟨-, -, hout⟩ | ⟨-, -, source, g', hs, hg, hout⟩
  · simp at hout
  · simp at hout
  · obtain rfl := Pipeline.Outcome.compiled.inj hout
    obtain ⟨compiled, restored, -, -, hw⟩ := Pipeline.transform_result_eq_ok_iff.1 hg
    obtain rfl := Except.ok.inj (ht.symm.trans (StyleFile.text_of_withText (readsBack_of_input hf restored) hw))
    obtain ⟨b, hb, rfl⟩ := StyleFile.withText_eq_ok_iff.1 hw
    rw [hf.encoding, Codecs.named_utf8, Codec.utf8_encode] at hb
    exact congrArg Contents.buffer (Except.ok.inj hb).symm

theorem bytes_of_text {g : StyleFile} {s : Text} (hencoding : g.encoding = Codec.utf8Name)
    (htext : g.text p.codecs = .ok s) :
    (g.text p.codecs).bind (p.codecs.named g.encoding).encode = .ok (Encoding.utf8Bytes s) := by
  rw [htext, hencoding, Codecs.named_utf8]
  rfl

theorem withTree_compiler (p : Pipeline) (t : FileTree) : withTree p (fun _ => p.compiler) t = p := rfl

theorem perform_of_error {job : StyleFile × Target} {e : Fault} (h : (p.process job.1).result = .error e) :
    perform cwd p (fun _ => p.compiler) t job = (t, ⟨(p.process job.1).events, .error e⟩) := by
  rw [perform, withTree_compiler]
  simp only [h]

theorem perform_of_compiled {job : StyleFile × Target} {g : StyleFile} {put : Run Unit}
    (h : (p.process job.1).result = .ok (.compiled g)) (hput : putOut cwd p.codecs t g job.2 = (t', put)) :
    perform cwd p (fun _ => p.compiler) t job =
      (t', ⟨(p.process job.1).events ++ put.events, put.result⟩) := by
  rw [perform, withTree_compiler]
  simp only [h, Pipeline.Outcome.file?, hput]

def Delivery.outputEvents (d : Delivery) : List Event :=
  match d.target with
  | none => [.printed d.text]
  | some path => [.wrote path (Encoding.utf8Bytes d.text),
      .logged ⟨.info, .commandLine, "Wrote ".toList ++ path.text⟩]

def Delivery.record (p : Pipeline) (d : Delivery) : List Event := (p.process d.file).events ++ d.outputEvents

theorem perform_of_lands {d : Delivery} (hf : IsInput p d.file) (hm : d.IsMade p) (h : d.Lands cwd t t') :
    perform cwd p (fun _ => p.compiler) t d.job = (t', ⟨d.record p, .ok ()⟩) := by
  obtain ⟨hs, g, hg, htext⟩ := hm
  obtain ⟨source, g', text, -, hcompiled, hencoding, -⟩ := text_of_process hf hg
  obtain rfl := Pipeline.Outcome.compiled.inj hcompiled
  have hjob : d.job.2 = d.target := rfl
  cases hd : d.target with
  | none =>
    obtain rfl : t' = t := by simpa [Delivery.Lands, hd] using h
    have hput : putOut cwd p.codecs t' g d.job.2 = (t', Run.emit (.printed d.text)) := by simp [hjob, hd, putOut, htext]
    rw [perform_of_compiled hg hput, Delivery.record, Delivery.outputEvents, hd]
    rfl
  | some path =>
    have hwrite : t.write cwd path (Encoding.utf8Bytes d.text) = (t', none) := by
      simpa [Delivery.Lands, hd] using h
    have hput : putOut cwd p.codecs t g d.job.2 = (t', do
        Run.emit (.wrote path (Encoding.utf8Bytes d.text))
        Run.log .commandLine .info ("Wrote ".toList ++ path.text)) := by
      simp [hjob, hd, putOut, bytes_of_text hencoding htext, hwrite]
    rw [perform_of_compiled hg hput, Delivery.record, Delivery.outputEvents, hd]
    rfl

theorem perform_of_fails {job : StyleFile × Target} {e : Fault} (hf : IsInput p job.1) (h : Fails cwd p t job e t') :
    perform cwd p (fun _ => p.compiler) t job = (t', ⟨(p.process job.1).events, .error e⟩) := by
  cases h with
  | processing h => exact perform_of_error h
  | @writing d path e t' made htarget h =>
    obtain ⟨-, g, hg, htext⟩ := made
    obtain ⟨source, g', text, -, hcompiled, hencoding, -⟩ := text_of_process hf hg
    obtain rfl := Pipeline.Outcome.compiled.inj hcompiled
    have hjob : d.job.2 = d.target := rfl
    have hput : putOut cwd p.codecs t g d.job.2 = (t', Run.fail e) := by
      simp [hjob, htarget, putOut, bytes_of_text hencoding htext, h]
    rw [perform_of_compiled hg hput]
    simp [Delivery.job, Run.fail]

/-- One step delivers its input or fails. -/
theorem lands_or_fails {job : StyleFile × Target} (hf : IsInput p job.1) (cwd : Place) (t : FileTree) :
    (∃ (d : Delivery) (t' : FileTree), job = d.job ∧ d.IsMade p ∧ d.Lands cwd t t') ∨
      ∃ e t', Fails cwd p t job e t' := by
  cases hr : (p.process job.1).result with
  | error e => exact .inr ⟨e, t, .processing hr⟩
  | ok out =>
    obtain ⟨source, g, text, hs, rfl, -, htext⟩ := text_of_process hf hr
    let d : Delivery := ⟨job.1, job.2, source, text⟩
    have hmade : d.IsMade p := ⟨hs, g, hr, htext⟩
    cases htarget : job.2 with
    | none => exact .inl ⟨d, t, rfl, hmade, by simp [Delivery.Lands, d, htarget]⟩
    | some path =>
      cases hw : t.write cwd path (Encoding.utf8Bytes text) with
      | mk t' failure =>
        cases failure with
        | none => exact .inl ⟨d, t', rfl, hmade, by simp [Delivery.Lands, d, htarget, hw]⟩
        | some e => exact .inr ⟨e, t', .writing hmade htarget hw⟩

theorem effects_record {d : Delivery} (hf : IsInput p d.file) (hc : p.compiler.Quiet) (hm : d.IsMade p) :
    Event.effects (d.record p) = d.events p := by
  have hcall : callsFor p d.file = [callFor p d.file d.source] := by rw [callsFor, hm.1]
  have hout : Event.effects d.outputEvents = [d.output] := by
    unfold Delivery.outputEvents Delivery.output
    cases d.target <;> rfl
  rw [Delivery.record, Event.effects_append, effects_process hf hc, hcall, hout]
  rfl

theorem perform_cases {job : StyleFile × Target} (hf : IsInput p job.1) (hc : p.compiler.Quiet)
    {r : Run Unit} (h : perform cwd p (fun _ => p.compiler) t job = (t', r)) :
    (∃ d : Delivery, job = d.job ∧ d.IsMade p ∧ d.Lands cwd t t' ∧ r.result = .ok () ∧
      Event.effects r.events = d.events p) ∨
    ∃ e, Fails cwd p t job e t' ∧ r.result = .error e ∧ Event.effects r.events = callsFor p job.1 := by
  rcases lands_or_fails hf cwd t with ⟨d, t₁, rfl, hmade, hlands⟩ | ⟨e, t₁, hfails⟩
  · obtain ⟨rfl, rfl⟩ := Prod.mk.inj ((perform_of_lands hf hmade hlands).symm.trans h)
    exact .inl ⟨d, rfl, hmade, hlands, rfl, effects_record hf hc hmade⟩
  · obtain ⟨rfl, rfl⟩ := Prod.mk.inj ((perform_of_fails hf hfails).symm.trans h)
    exact .inr ⟨e, hfails, rfl, effects_process hf hc⟩

/-- A run delivers all of its inputs, or delivers those before the first that fails. -/
theorem performAll_cases {jobs : List (StyleFile × Target)} (hf : ∀ job ∈ jobs, IsInput p job.1)
    (hc : p.compiler.Quiet) {r : Run Unit}
    (h : performAll cwd p (fun _ => p.compiler) t jobs = (t', r)) :
    (∃ done, jobs = done.map Delivery.job ∧ Deliveries cwd p t done t' ∧ r.result = .ok () ∧
      Event.effects r.events = done.flatMap (Delivery.events p)) ∨
    ∃ done job later t₁ e, jobs = done.map Delivery.job ++ job :: later ∧ Deliveries cwd p t done t₁ ∧
      Fails cwd p t₁ job e t' ∧ r.result = .error e ∧
      Event.effects r.events = done.flatMap (Delivery.events p) ++ callsFor p job.1 := by
  induction jobs generalizing t r with
  | nil =>
    rw [performAll, Prod.mk.injEq] at h
    obtain ⟨rfl, rfl⟩ := h
    exact .inl ⟨[], rfl, .nil t, rfl, rfl⟩
  | cons job jobs ih =>
    rw [List.forall_mem_cons] at hf
    cases hp : perform cwd p (fun _ => p.compiler) t job with
    | mk t₁ first =>
      cases hrest : performAll cwd p (fun _ => p.compiler) t₁ jobs with
      | mk t₂ rest =>
        simp only [performAll, hp, hrest] at h
        rcases perform_cases hf.1 hc hp with ⟨d, rfl, hmade, hlands, hok, hd⟩ | ⟨e, hfails, herror, hcall⟩
        · simp only [hok, Prod.mk.injEq] at h
          obtain ⟨rfl, rfl⟩ := h
          rcases ih hf.2 hrest with
            ⟨done, rfl, hall, hres, hev⟩ | ⟨done, job, later, t₃, e, rfl, hall, hfails, hres, hev⟩
          · refine .inl ⟨d :: done, rfl, .cons hmade hlands hall, hres, ?_⟩
            rw [Event.effects_append, hd, hev, List.flatMap_cons]
          · refine .inr ⟨d :: done, job, later, t₃, e, rfl, .cons hmade hlands hall, hfails, hres, ?_⟩
            rw [Event.effects_append, hd, hev, List.flatMap_cons, List.append_assoc]
        · simp only [herror, Prod.mk.injEq] at h
          obtain ⟨rfl, rfl⟩ := h
          exact .inr ⟨[], job, jobs, t, e, rfl, .nil t, hfails, rfl, by simpa using hcall⟩

theorem performAll_of_deliveries {ds : List Delivery} (hf : ∀ d ∈ ds, IsInput p d.file)
    (h : Deliveries cwd p t ds t') :
    performAll cwd p (fun _ => p.compiler) t (ds.map Delivery.job) = (t', ⟨ds.flatMap (Delivery.record p), .ok ()⟩) := by
  induction h with
  | nil t => rfl
  | cons made lands rest ih =>
    rw [List.forall_mem_cons] at hf
    simp only [List.map_cons, performAll, perform_of_lands hf.1 made lands, ih hf.2, List.flatMap_cons]

def Delivery.write? (d : Delivery) : Option (Path × Bytes) :=
  d.target.map fun path => (path, Encoding.utf8Bytes d.text)

/-- Deliveries change the tree by their writes. -/
theorem Deliveries.writes {ds : List Delivery} (h : Deliveries cwd p t ds t') :
    FileTree.Writes cwd t (ds.filterMap Delivery.write?) t' := by
  induction h with
  | nil t => exact .nil t
  | @cons t t₁ t₂ d ds made lands rest ih =>
    obtain ⟨f, target, source, text⟩ := d
    cases target with
    | none =>
      obtain rfl : t₁ = t := lands
      exact ih
    | some path => exact .cons lands ih

/-- Where no write changes anything, the same deliveries can be made. -/
theorem Deliveries.again {ds : List Delivery} {s : FileTree} (h : Deliveries cwd p t ds t')
    (hs : ∀ w ∈ ds.filterMap Delivery.write?, s.write cwd w.1 w.2 = (s, none)) : Deliveries cwd p s ds s := by
  induction h with
  | nil t => exact .nil s
  | @cons t t₁ t₂ d ds made lands rest ih =>
    obtain ⟨f, target, source, text⟩ := d
    cases target with
    | none => exact .cons made rfl (ih hs)
    | some path =>
      have hcons : (List.filterMap Delivery.write? (⟨f, some path, source, text⟩ :: ds)) =
          (path, Encoding.utf8Bytes text) :: ds.filterMap Delivery.write? := rfl
      rw [hcons, List.forall_mem_cons] at hs
      exact .cons made hs.1 (ih hs.2)

end CommandLine
end StyleShield
