import PluginLint.Check.Frontmatter
import PluginLint.Check.Tools
import PluginLint.Proofs.Report.Recording

/-!
# Reports on single components

The frontmatter check and the tools check go through the components one by one, and what a result
holds are their reports in a row: commands, agents, skills (`ReportsApart`). A report is made from
its component alone. So a component that cannot be read is reported as such and hides nothing else,
and what stands in one component changes the report on it and on no other.
-/
namespace PluginLint

/-! ## Other content in one component -/

def Component.withContent (c : Component) (content : Except Fault Text) : Component :=
  { c with content := content }

namespace Components

/-- The components of a kind with `f` applied to the `i`th. -/
def modify (c : Components) (kind : ComponentKind) (i : Nat) (f : Component → Component) :
    Components :=
  match kind with
  | .command => { c with commands := c.commands.modify i f }
  | .agent => { c with agents := c.agents.modify i f }
  | .skill => { c with skills := c.skills.modify i f }

/-- One component changes in the row of them all, and those before it and behind it stay. -/
theorem exists_toList_modify {c : Components} {kind : ComponentKind} {i : Nat} {old : Component}
    (h : (c.ofKind kind)[i]? = some old) (f : Component → Component) :
    ∃ front back, c.toList = front ++ old :: back ∧
      (c.modify kind i f).toList = front ++ f old :: back := by
  obtain ⟨hi, hold⟩ := List.getElem?_eq_some_iff.mp h
  obtain ⟨front, a, back, hlist, hlength, hmodify⟩ := List.exists_of_modify f hi
  obtain rfl : a = old := by
    have hat : (c.ofKind kind)[i]? = some a := by
      rw [hlist, ← hlength]
      simp
    exact Option.some.inj (hat.symm.trans h)
  cases kind with
  | command =>
    refine ⟨front, back ++ c.agents ++ c.skills, ?_, ?_⟩
    · have hcommands : c.commands = front ++ a :: back := hlist
      simp [toList, hcommands]
    · have hcommands : c.commands.modify i f = front ++ f a :: back := hmodify
      simp [toList, modify, hcommands]
  | agent =>
    refine ⟨c.commands ++ front, back ++ c.skills, ?_, ?_⟩
    · have hagents : c.agents = front ++ a :: back := hlist
      simp [toList, hagents]
    · have hagents : c.agents.modify i f = front ++ f a :: back := hmodify
      simp [toList, modify, hagents]
  | skill =>
    refine ⟨c.commands ++ c.agents ++ front, back, ?_, ?_⟩
    · have hskills : c.skills = front ++ a :: back := hlist
      simp [toList, hskills]
    · have hskills : c.skills.modify i f = front ++ f a :: back := hmodify
      simp [toList, modify, hskills]

end Components

/-- The same plugin with other content in the `i`th component of a kind. -/
def Subject.withContent (s : Subject) (kind : ComponentKind) (i : Nat)
    (content : Except Fault Text) : Subject :=
  { s with components := s.components.modify kind i (·.withContent content) }

/-! ## Reports in a row -/

namespace Check

/-- What a result keeps of some issues, marked as belonging to a check. -/
def kept (kind : CheckKind) (verbose : Bool) (issues : List Issue) : List Issue :=
  (issues.filter fun i => verbose || decide (i.severity ≠ .ok)).map (Issue.stamp kind)

theorem issues_run (c : Check) (s : Subject) :
    (c.run s).issues = kept c.kind s.verbose (c.inspect s).issues := by
  rw [run, record_eq]
  rfl

theorem kept_flatMap (kind : CheckKind) (verbose : Bool) {α : Type} (l : List α)
    (rules : α → List Issue) :
    kept kind verbose (l.flatMap rules) = l.flatMap fun a => kept kind verbose (rules a) := by
  simp only [kept, List.filter_flatMap, List.map_flatMap]

/-- A result keeps all issues of a sort to which no passing detail belongs and for which it does not
matter what check an issue is marked with. -/
theorem filter_kept_of_reported {p : Issue → Bool} {kind : CheckKind} {issues : List Issue}
    (hstamp : ∀ i, p (i.stamp kind) = p i) (hreported : ∀ i ∈ issues, p i = true → i.severity ≠ .ok)
    (verbose : Bool) :
    (kept kind verbose issues).filter p = (issues.filter p).map (Issue.stamp kind) := by
  simp only [kept, List.filter_map, List.filter_filter, Function.comp_def, hstamp]
  refine congrArg (List.map _) (List.filter_congr fun i hi => ?_)
  by_cases hp : p i = true
  · simp [hp, hreported i hi hp]
  · simp [hp]

/-- Of issues with a weight a result keeps all. -/
theorem filter_kept (kind : CheckKind) (verbose : Bool) {severity : Severity}
    (h : severity ≠ .ok) (issues : List Issue) :
    ((kept kind verbose issues).filter fun i => i.severity = severity) =
      (issues.filter fun i => i.severity = severity).map (Issue.stamp kind) := by
  refine filter_kept_of_reported (fun _ => rfl) (fun i _ hi => ?_) verbose
  rwa [of_decide_eq_true hi]

/-- A run keeps what its check finds of a sort to which no passing detail belongs. -/
theorem filter_run_of_reported {p : Issue → Bool} {found : List Issue} (c : Check) (s : Subject)
    (hstamp : ∀ i, p (i.stamp c.kind) = p i) (hfound : (c.inspect s).issues.filter p = found)
    (hreported : ∀ i ∈ found, i.severity ≠ .ok) :
    (c.run s).issues.filter p = found.map (Issue.stamp c.kind) := by
  subst hfound
  rw [issues_run]
  exact filter_kept_of_reported hstamp
    (fun i hi hp => hreported i (List.mem_filter.mpr ⟨hi, hp⟩)) s.verbose

/-- A run passes when its result holds no requirement. -/
theorem passed_run_iff (c : Check) (s : Subject) :
    (c.run s).passed = true ↔ ((c.run s).issues.filter fun i => i.severity = .must) = [] := by
  rw [issues_run, filter_kept c.kind s.verbose Severity.noConfusion, List.map_eq_nil_iff, run,
    record_eq, List.filter_eq_nil_iff, List.all_eq_true]
  simp only [decide_eq_true_eq]

/-- A check that reports on each component by itself: `report` says what, given whether passing
details are wanted. -/
structure ReportsApart (c : Check) (report : Bool → Component → List Issue) : Prop where
  issues : ∀ s : Subject, (c.run s).issues =
    s.components.commands.flatMap (report s.verbose) ++
      s.components.agents.flatMap (report s.verbose) ++
      s.components.skills.flatMap (report s.verbose)
  unreadable : ∀ verbose component fault, component.content = .error fault →
    report verbose component =
      [{ severity := .must
         message := "Cannot read file".toList
         check := c.kind
         file := some component.label
         source := some (component.faultText fault) }]
  /-- other content in one component changes the report on it and no other -/
  replaced : ∀ (s : Subject) kind i old content, (s.components.ofKind kind)[i]? = some old →
    ∃ front back, s.components.toList = front ++ old :: back ∧
      (c.run s).issues = front.flatMap (report s.verbose) ++ report s.verbose old ++
        back.flatMap (report s.verbose) ∧
      (c.run (s.withContent kind i content)).issues = front.flatMap (report s.verbose) ++
        report s.verbose (old.withContent content) ++ back.flatMap (report s.verbose)

/-- A check reports on each component by itself when it goes through them with one rule. -/
theorem reportsApart_of_rules {c : Check} {rules : Component → List Issue}
    (hrules : ∀ s : Subject, (c.inspect s).issues = s.components.toList.flatMap rules)
    (hfault : ∀ component fault, component.content = .error fault →
      rules component = [component.cannotRead fault]) :
    c.ReportsApart fun verbose component => kept c.kind verbose (rules component) := by
  have hrow (s : Subject) : (c.run s).issues =
      s.components.toList.flatMap fun component => kept c.kind s.verbose (rules component) := by
    rw [issues_run, hrules, kept_flatMap]
  refine ⟨fun s => ?_, fun verbose component fault h => ?_, fun s kind i old content h => ?_⟩
  · rw [hrow, Components.toList, List.flatMap_append, List.flatMap_append]
  · rw [hfault component fault h]
    simp [kept, Component.cannotRead, Issue.cannotRead, Issue.stamp]
  · obtain ⟨front, back, hold, hnew⟩ :=
      Components.exists_toList_modify h (·.withContent content)
    refine ⟨front, back, hold, ?_, ?_⟩
    · rw [hrow, hold, List.flatMap_append, List.flatMap_cons, List.append_assoc]
    · have hcomponents : (s.withContent kind i content).components.toList =
          front ++ old.withContent content :: back := hnew
      rw [hrow, hcomponents, List.flatMap_append, List.flatMap_cons, List.append_assoc]
      rfl

end Check

/-- What the frontmatter check reports on a component. -/
def FrontmatterCheck.report (verbose : Bool) (c : Component) : List Issue :=
  Check.kept .frontmatter verbose (componentRules c)

/-- What the tools check reports on a component. -/
def ToolsCheck.report (verbose : Bool) (c : Component) : List Issue :=
  Check.kept .tools verbose (componentRules c)

theorem frontmatterCheck_reportsApart : frontmatterCheck.ReportsApart FrontmatterCheck.report :=
  Check.reportsApart_of_rules (fun _ => rfl) fun component fault h => by
    simp only [FrontmatterCheck.componentRules, h]

theorem toolsCheck_reportsApart : toolsCheck.ReportsApart ToolsCheck.report :=
  Check.reportsApart_of_rules (fun _ => rfl) fun component fault h => by
    simp only [ToolsCheck.componentRules, h]

/-- The results of both checks are reports on the single components in a row, in the order of
commands, agents and skills. A component that cannot be read is reported with that one requirement,
and whatever is put in the place of a component's content, readable or not, the reports on the
others stay what they are and where they are. -/
theorem components_reported_apart :
    frontmatterCheck.ReportsApart FrontmatterCheck.report ∧
      toolsCheck.ReportsApart ToolsCheck.report :=
  ⟨frontmatterCheck_reportsApart, toolsCheck_reportsApart⟩

end PluginLint
