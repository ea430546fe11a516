import Mathlib
import StyleShield.Proofs.CommandLine.Emission
import StyleShield.Proofs.CommandLine.Report

/-! The trace of a run that has a plan. Its inputs are fixed before the first output; then they are
delivered in order, each after one call of the compiler, until one fails or all are done
(`run_trace`). -/
namespace StyleShield.CommandLine

variable {w : Workplace} {args : List Text} {o : Options} {choice : Compiler.Choice} {p : Pipeline}
  {jobs : List (StyleFile × Target)}

theorem compiler_of_starts (h : Starts w args o choice p) : p.compiler = w.compilerFor choice w.tree := by
  obtain ⟨typed, -, -, -, -, hbuild⟩ := h
  obtain ⟨name, -, -, hbuilt, -⟩ := buildPipeline_eq_ok_iff.1 hbuild
  obtain ⟨ms, -, rfl⟩ := Pipeline.build_some_eq_ok_iff.1 hbuilt
  rfl

theorem isInput_of_wanted {f : StyleFile} {files : List StyleFile} (h : readInputs w o = .ok files)
    (hf : f ∈ wanted p files) : IsInput p f := by
  obtain ⟨hin, hwanted⟩ := List.mem_filter.1 hf
  obtain ⟨hbuffer, hencoding⟩ := buffered_of_readInputs h hin
  exact ⟨hbuffer, hencoding, by simpa using hwanted⟩

theorem isInput_of_plan (h : (plan w o p).result = .ok (.ok jobs)) : ∀ job ∈ jobs, IsInput p job.1 := by
  obtain ⟨files, hfiles, hfst, -⟩ := plan_eq_ok h
  intro job hjob
  exact isInput_of_wanted hfiles (hfst ▸ List.mem_map_of_mem hjob)

end StyleShield.CommandLine
