import PluginLint.Check.Engine
import PluginLint.Proofs.Check.Tokens
import PluginLint.Proofs.Report.Recording

/-!
# What an engine with the built-in checks runs

Registering the built-in checks leaves them in their order, so a selection runs the built-in checks
of the selected kinds, each once. Of them only the tokens check looks at budgets.
-/
namespace PluginLint

/-- A built-in check is one of the five. -/
theorem builtin_cases {c : Check} (h : c ∈ builtinChecks) :
    c = structureCheck ∨ c = manifestCheck ∨ c = frontmatterCheck ∨ c = toolsCheck ∨
      c = tokensCheck := by
  simpa [builtinChecks] using h

/-- A built-in check is the only one of its kind. -/
theorem eq_of_builtin {c : Check} (h : c ∈ builtinChecks) : c = builtinCheck c.kind := by
  rcases builtin_cases h with rfl | rfl | rfl | rfl | rfl <;> rfl

theorem builtinCheck_mem (kind : CheckKind) : builtinCheck kind ∈ builtinChecks := by
  cases kind <;> simp [builtinChecks, builtinCheck]

theorem kind_builtinCheck (kind : CheckKind) : (builtinCheck kind).kind = kind := by
  cases kind <;> rfl

/-- Only the tokens check looks at budgets. -/
theorem critical_of_builtin {c : Check} (h : c ∈ builtinChecks) (hkind : c.kind ≠ .tokens)
    (s : Subject) : (c.inspect s).critical = false := by
  rcases builtin_cases h with rfl | rfl | rfl | rfl | rfl
  · rfl
  · change (ManifestCheck.inspect s).critical = false
    unfold ManifestCheck.inspect
    split <;> rfl
  · rfl
  · rfl
  · exact absurd rfl hkind

/-- What a built-in check calls critical it also reports as a violated requirement. -/
theorem exists_must_of_builtin {c : Check} (h : c ∈ builtinChecks) {s : Subject}
    (hcritical : (c.inspect s).critical = true) :
    ∃ i ∈ (c.inspect s).issues, i.severity = .must := by
  by_cases hkind : c.kind = .tokens
  · have hc : c = tokensCheck := by rw [eq_of_builtin h, hkind, builtinCheck]
    rw [hc] at hcritical ⊢
    exact TokensCheck.exists_must_of_critical hcritical
  · rw [critical_of_builtin h hkind s] at hcritical
    cases hcritical

namespace Engine

/-- Registering the built-in checks leaves them in their own order. -/
theorem checks_standard (limits : Limits) (verbose : Bool) :
    (standard limits verbose).checks = builtinChecks := rfl

variable {tree : FileTree} {root : Path} {limits : Limits} {counter : Counter} {verbose : Bool}
variable {kinds : List CheckKind}

theorem results_eq :
    (((standard limits verbose).select kinds).validate tree root counter).results =
      (builtinChecks.filter fun c => c.kind ∈ kinds).map fun c =>
        c.run (Subject.ofRoot tree root limits counter verbose) := by
  rw [validate, inspect, select, checks_standard]
  rfl

/-- A result belongs to a built-in check of a selected kind. -/
theorem mem_results_iff {r : CheckResult} :
    r ∈ (((standard limits verbose).select kinds).validate tree root counter).results ↔
      ∃ kind ∈ kinds,
        (builtinCheck kind).run (Subject.ofRoot tree root limits counter verbose) = r := by
  rw [results_eq, List.mem_map]
  constructor
  · rintro ⟨c, hc, rfl⟩
    obtain ⟨hbuiltin, hkind⟩ := List.mem_filter.mp hc
    exact ⟨c.kind, of_decide_eq_true hkind, by rw [← eq_of_builtin hbuiltin]⟩
  · rintro ⟨kind, hkind, rfl⟩
    refine ⟨builtinCheck kind, List.mem_filter.mpr ⟨builtinCheck_mem kind, ?_⟩, rfl⟩
    rw [kind_builtinCheck]
    exact decide_eq_true hkind

end Engine
end PluginLint
