import PluginLint.Proofs.Check.Tokens
import PluginLint.Proofs.Settings.Layers

/-!
# The bands of a body

The three limits on bodies part the bodies into four bands (`BodyBand.Holds`). The tokens check does
not look for the band that a body lies in but for the highest one whose lower limit it has passed
(`BodyBand.ofBody`), so limits that are out of order cannot lower the severity of a longer body, and
lower limits cannot lower that of the same body (`BodyBand.rank_ofBody_le`). The two readings agree
where the limits are in order, as those of loaded settings are: then a body lies in one band and has
passed the limits of all below it (`loaded_limits_band_bodies`).
-/
namespace PluginLint

inductive BodyBand where
  | withinTarget
  | aboveTarget
  | warning
  | critical
  deriving DecidableEq, Repr

namespace BodyBand

/-- Whether a body lies in a band: above the limit below it and not above the one over it. -/
def Holds (limits : Limits) (body : Nat) : BodyBand → Prop
  | .withinTarget => body ≤ limits.bodyTarget
  | .aboveTarget => limits.bodyTarget < body ∧ body ≤ limits.bodyWarning
  | .warning => limits.bodyWarning < body ∧ body ≤ limits.bodyCritical
  | .critical => limits.bodyCritical < body

/-- Whether a body has passed the limit below a band. -/
def Entered (limits : Limits) (body : Nat) : BodyBand → Prop
  | .withinTarget => True
  | .aboveTarget => limits.bodyTarget < body
  | .warning => limits.bodyWarning < body
  | .critical => limits.bodyCritical < body

/-- The highest band whose limit a body has passed. -/
def ofBody (limits : Limits) (body : Nat) : BodyBand :=
  if limits.bodyCritical < body then .critical
  else if limits.bodyWarning < body then .warning
  else if limits.bodyTarget < body then .aboveTarget
  else .withinTarget

/-- The status of a skill with a body in a band. -/
def status : BodyBand → BudgetStatus
  | .withinTarget => .ok
  | .aboveTarget => .ok
  | .warning => .warning
  | .critical => .critical

/-- The severity of the issue on a body in a band. -/
def severity : BodyBand → Severity
  | .withinTarget => .ok
  | .aboveTarget => .may
  | .warning => .should
  | .critical => .must

/-- The place of a band among the others, the lowest first. -/
def rank (band : BodyBand) : Nat := band.severity.rank

variable {limits limits' : Limits} {body body' : Nat} {band : BodyBand}

/-! ## The highest band -/

theorem entered_ofBody (limits : Limits) (body : Nat) :
    (ofBody limits body).Entered limits body := by
  unfold ofBody
  split
  · assumption
  · split
    · assumption
    · split
      · assumption
      · trivial

theorem rank_le_of_entered (h : band.Entered limits body) :
    band.rank ≤ (ofBody limits body).rank := by
  unfold ofBody
  cases band with
  | withinTarget => exact Nat.zero_le _
  | aboveTarget =>
    rw [if_pos (show limits.bodyTarget < body from h)]
    split
    · decide
    · split <;> decide
  | warning =>
    rw [if_pos (show limits.bodyWarning < body from h)]
    split <;> decide
  | critical =>
    rw [if_pos (show limits.bodyCritical < body from h)]

/-- Whether no limit on bodies is higher than before. -/
def LimitsLowered (limits limits' : Limits) : Prop :=
  limits'.bodyTarget ≤ limits.bodyTarget ∧ limits'.bodyWarning ≤ limits.bodyWarning ∧
    limits'.bodyCritical ≤ limits.bodyCritical

theorem limitsLowered_refl (limits : Limits) : LimitsLowered limits limits :=
  ⟨Nat.le_refl _, Nat.le_refl _, Nat.le_refl _⟩

theorem Entered.mono (h : band.Entered limits body) (hbody : body ≤ body')
    (hlimits : LimitsLowered limits limits') : band.Entered limits' body' := by
  obtain ⟨htarget, hwarning, hcritical⟩ := hlimits
  cases band with
  | withinTarget => trivial
  | aboveTarget => exact Nat.lt_of_le_of_lt htarget (Nat.lt_of_lt_of_le h hbody)
  | warning => exact Nat.lt_of_le_of_lt hwarning (Nat.lt_of_lt_of_le h hbody)
  | critical => exact Nat.lt_of_le_of_lt hcritical (Nat.lt_of_lt_of_le h hbody)

/-- A longer body under lower limits is in no lower band, be the limits in order or not. -/
theorem rank_ofBody_le (hbody : body ≤ body') (hlimits : LimitsLowered limits limits') :
    (ofBody limits body).rank ≤ (ofBody limits' body').rank :=
  rank_le_of_entered ((entered_ofBody limits body).mono hbody hlimits)

/-- A higher band has no lower status. -/
theorem status_rank_le {band' : BodyBand} (h : band.rank ≤ band'.rank) :
    band.status.rank ≤ band'.status.rank := by
  revert h
  cases band <;> cases band' <;> decide

/-! ## Limits in order -/

/-- Where limits are in order a body lies in the highest band that it has entered and in no
other. -/
theorem holds_iff (h : limits.disorder? = none) :
    band.Holds limits body ↔ ofBody limits body = band := by
  obtain ⟨-, htarget, hwarning⟩ := Limits.disorder?_eq_none_iff.mp h
  unfold ofBody
  by_cases hcritical : limits.bodyCritical < body
  · rw [if_pos hcritical]
    cases band <;> simp only [Holds, reduceCtorEq, iff_false, iff_true] <;> omega
  · rw [if_neg hcritical]
    by_cases hhigh : limits.bodyWarning < body
    · rw [if_pos hhigh]
      cases band <;> simp only [Holds, reduceCtorEq, iff_false, iff_true] <;> omega
    · rw [if_neg hhigh]
      by_cases habove : limits.bodyTarget < body
      · rw [if_pos habove]
        cases band <;> simp only [Holds, reduceCtorEq, iff_false, iff_true] <;> omega
      · rw [if_neg habove]
        cases band <;> simp only [Holds, reduceCtorEq, iff_false, iff_true] <;> omega

theorem existsUnique_holds (h : limits.disorder? = none) (body : Nat) :
    ∃! band : BodyBand, band.Holds limits body := by
  refine ⟨ofBody limits body, (holds_iff h).mpr rfl, fun band hband => ?_⟩
  exact ((holds_iff h).mp hband).symm

/-- Where limits are in order a body enters the bands one after the other. -/
theorem entered_of_rank_le (h : limits.disorder? = none) {lower : BodyBand}
    (hlower : lower.rank ≤ band.rank) (hband : band.Entered limits body) :
    lower.Entered limits body := by
  obtain ⟨-, htarget, hwarning⟩ := Limits.disorder?_eq_none_iff.mp h
  cases lower <;> cases band <;> simp only [Entered, rank, severity, Severity.rank] at * <;> omega

end BodyBand

/-! ## The issue on a body -/

namespace TokensCheck

variable {b : SkillBudget} {limits : Limits}

theorem status_eq (h : b.status = BudgetStatus.ofBody b.units.body limits) :
    b.status = (BodyBand.ofBody limits b.units.body).status := by
  rw [h, BudgetStatus.ofBody, BodyBand.ofBody]
  split
  · rfl
  · split
    · rfl
    · split <;> rfl

theorem severity_bandIssue (b : SkillBudget) (limits : Limits) :
    (bandIssue b limits).severity = match b.status with
      | .critical => .must
      | .warning => .should
      | .ok => if limits.bodyTarget < b.units.body then .may else .ok := by
  unfold bandIssue SkillBudget.isAboveTarget
  cases b.status with
  | critical => rfl
  | warning => rfl
  | ok => by_cases h : limits.bodyTarget < b.units.body <;> simp [h, plain]

/-- The severity of the issue on a body is that of the highest band that it has entered. -/
theorem severity_bodyRule (file : Text) (h : b.status = BudgetStatus.ofBody b.units.body limits) :
    (bodyRule file b limits).severity = (BodyBand.ofBody limits b.units.body).severity := by
  have hband : (bodyRule file b limits).severity = (bandIssue b limits).severity := rfl
  rw [hband, severity_bandIssue, h, BudgetStatus.ofBody, BodyBand.ofBody]
  by_cases hcritical : limits.bodyCritical < b.units.body
  · rw [if_pos hcritical, if_pos hcritical]
    rfl
  · rw [if_neg hcritical, if_neg hcritical]
    by_cases hwarning : limits.bodyWarning < b.units.body
    · rw [if_pos hwarning, if_pos hwarning]
      rfl
    · rw [if_neg hwarning, if_neg hwarning]
      by_cases htarget : limits.bodyTarget < b.units.body <;> simp [htarget, BodyBand.severity]

/-- What an issue on a body advises to move. -/
theorem suggestion_bodyRule (file : Text) (b : SkillBudget) (limits : Limits) :
    (b.status = .critical → (bodyRule file b limits).suggestion =
      some s!"MUST move {b.excess limits}+ tokens to references/".toList) ∧
    (b.status = .warning → (bodyRule file b limits).suggestion =
      some s!"Move {b.excess limits}+ tokens to references/".toList) := by
  constructor
  · intro h
    simp only [bodyRule, bandIssue, h]
  · intro h
    simp only [bodyRule, bandIssue, h]

end TokensCheck

/-! ## Loaded settings -/

theorem Settings.disorder?_of_load {t : FileTree} {env : Environment} {argument : Option Path}
    {root : Path} {settings : Settings} (h : load t env argument root = .ok settings) :
    settings.limits.disorder? = none := by
  obtain ⟨hloadable, rfl⟩ := load_eq_ok_iff.mp h
  exact Limits.disorder?_eq_none_iff.mpr
    ⟨hloadable.metadata, hloadable.target, hloadable.warning⟩

/-- Under limits that were loaded every body lies in one band, from which the skill has its status
and the issue on the body its severity, and has passed the limits of all bands below it. A body with
a status other than ok is above its target, so the advice is to move one unit or more. Other limits
that were loaded, none of them higher, do not lower the severity. -/
theorem loaded_limits_band_bodies {t : FileTree} {env : Environment} {argument : Option Path}
    {root : Path} {settings : Settings}
    (h : Settings.load t env argument root = .ok settings) :
    (∀ body, ∃! band : BodyBand, band.Holds settings.limits body) ∧
    ∀ (tree : FileTree) (directory : Path) (entry : Text) (counter : Counter) (file : Text),
      let b := SkillBudget.analyze tree directory entry counter settings.limits
      let i := TokensCheck.bodyRule file b settings.limits
      (∀ band : BodyBand, band.Holds settings.limits b.units.body →
        b.status = band.status ∧ i.severity = band.severity ∧
          ∀ lower : BodyBand, lower.rank ≤ band.rank →
            lower.Entered settings.limits b.units.body) ∧
      (b.status ≠ .ok → settings.limits.bodyTarget < b.units.body ∧
        ∃ excess, 1 ≤ excess ∧ settings.limits.bodyTarget + excess = b.units.body ∧
          (b.status = .critical →
            i.suggestion = some s!"MUST move {excess}+ tokens to references/".toList) ∧
          (b.status = .warning →
            i.suggestion = some s!"Move {excess}+ tokens to references/".toList)) ∧
      ∀ (t' : FileTree) (env' : Environment) (argument' : Option Path) (root' : Path)
        (settings' : Settings), Settings.load t' env' argument' root' = .ok settings' →
        BodyBand.LimitsLowered settings.limits settings'.limits →
        i.severity.rank ≤ (TokensCheck.bodyRule file
          (SkillBudget.analyze tree directory entry counter settings'.limits)
          settings'.limits).severity.rank := by
  have horder := Settings.disorder?_of_load h
  refine ⟨BodyBand.existsUnique_holds horder, ?_⟩
  intro tree directory entry counter file b i
  have hstatus : b.status = (BodyBand.ofBody settings.limits b.units.body).status :=
    TokensCheck.status_eq rfl
  have hseverity : i.severity = (BodyBand.ofBody settings.limits b.units.body).severity :=
    TokensCheck.severity_bodyRule file rfl
  have hentered := BodyBand.entered_ofBody settings.limits b.units.body
  refine ⟨?_, ?_, ?_⟩
  · intro band hband
    obtain rfl := (BodyBand.holds_iff horder).mp hband
    exact ⟨hstatus, hseverity, fun lower hlower =>
      BodyBand.entered_of_rank_le horder hlower hentered⟩
  · intro hne
    have htarget : BodyBand.aboveTarget.Entered settings.limits b.units.body := by
      refine BodyBand.entered_of_rank_le horder ?_ hentered
      rw [hstatus] at hne
      revert hne
      cases BodyBand.ofBody settings.limits b.units.body <;> decide
    have hlt : settings.limits.bodyTarget < b.units.body := htarget
    refine ⟨hlt, b.excess settings.limits, Nat.sub_pos_of_lt hlt,
      Nat.add_sub_cancel' (Nat.le_of_lt hlt), ?_⟩
    exact TokensCheck.suggestion_bodyRule file b settings.limits
  · intro t' env' argument' root' settings' _ hlowered
    let b' := SkillBudget.analyze tree directory entry counter settings'.limits
    have hseverity' : (TokensCheck.bodyRule file b' settings'.limits).severity =
        (BodyBand.ofBody settings'.limits b'.units.body).severity :=
      TokensCheck.severity_bodyRule file rfl
    rw [hseverity, hseverity']
    exact BodyBand.rank_ofBody_le (Nat.le_refl _) hlowered

/-- An environment that sets the limits on bodies. -/
def tightEnvironment (critical : String) : Environment := .ofVariables fun name =>
  if name = Threshold.bodyTarget.environmentName then some "1".toList
  else if name = Threshold.bodyWarning.environmentName then some "2".toList
  else if name = Threshold.bodyCritical.environmentName then some critical.toList
  else none

/-- A body of three units is two above its target, and no milder under a lower critical limit. -/
theorem tight_limits_band_body :
    let settings (critical : Nat) : Settings := ⟨⟨50, 100, 1, 2, critical⟩, .automatic⟩
    let load (environment : Environment) := Settings.load ⟨[], []⟩ environment none ⟨"/p".toList⟩
    let issue (critical : Nat) := TokensCheck.bodyRule "skills/a/SKILL.md".toList
      (SkillBudget.analyze ⟨[], []⟩ ⟨"/p/skills/a".toList⟩ "Twelve units".toList .approximate
        (settings critical).limits) (settings critical).limits
    load (tightEnvironment "9") = .ok (settings 9) ∧
      load (tightEnvironment "2") = .ok (settings 2) ∧
      BodyBand.warning.Holds (settings 9).limits 3 ∧
      BodyBand.LimitsLowered (settings 9).limits (settings 2).limits ∧
      (issue 9).severity = .should ∧
      (∃ excess, 1 ≤ excess ∧ 1 + excess = 3 ∧
        (issue 9).suggestion = some s!"Move {excess}+ tokens to references/".toList) ∧
      (issue 9).severity.rank ≤ (issue 2).severity.rank := by
  intro settings load issue
  have hload : load (tightEnvironment "9") = .ok (settings 9) := rfl
  have hload' : load (tightEnvironment "2") = .ok (settings 2) := rfl
  have hband : BodyBand.warning.Holds (settings 9).limits 3 := ⟨by decide, by decide⟩
  have hlowered : BodyBand.LimitsLowered (settings 9).limits (settings 2).limits :=
    ⟨by decide, by decide, by decide⟩
  obtain ⟨hbands, hadvice, hlower⟩ := (loaded_limits_band_bodies hload).2 ⟨[], []⟩
    ⟨"/p/skills/a".toList⟩ "Twelve units".toList .approximate "skills/a/SKILL.md".toList
  obtain ⟨hstatus, hseverity, -⟩ := hbands .warning hband
  obtain ⟨-, excess, hpositive, hsum, -, hmove⟩ := hadvice (by rw [hstatus]; decide)
  exact ⟨hload, hload', hband, hlowered, hseverity, ⟨excess, hpositive, hsum, hmove hstatus⟩,
    hlower _ _ _ _ _ hload' hlowered⟩

end PluginLint
