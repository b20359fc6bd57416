import PluginLint.Proofs.Failure
import PluginLint.Settings.Layers

/-!
# What layered settings come to

Loading goes through files and variables one after the other and stops at the first thing wrong.
The same settings can be told one by one: each is what its variable says, or what the strongest file
that sets it says, or the standard (`Settings.expected`). The strongest file is one that the command
line or `PLINT_CONFIG` names, and then it is the only one; otherwise `.plint.toml` in the plugin
comes before `plint/config.toml` among the user's settings (`Settings.ruling`). Loading succeeds
exactly when everything that is looked at can be read and the limits that come out are in order
(`Settings.Loadable`), and then it gives these settings (`load_eq_ok_iff`).
-/
namespace PluginLint

/-! ## Files -/

/-- Whether a settings file can be read and parsed if it is there. -/
def IsLegible (t : FileTree) (file : Path) : Prop :=
  t.pathExists file = true →
    ∃ text patch, t.readText file = .ok text ∧ Patch.parse? text = some patch

/-- The patch of a settings file that is there and can be read and parsed. -/
def patchOf? (t : FileTree) (file : Path) : Option Patch :=
  if t.pathExists file then (t.readText file).toOption.bind Patch.parse? else none

theorem readPatch_eq_ok_iff {t : FileTree} {file : Path} {found : Option Patch} :
    readPatch t file = .ok found ↔ IsLegible t file ∧ patchOf? t file = found := by
  unfold readPatch IsLegible patchOf?
  by_cases hexists : t.pathExists file = true
  · simp only [hexists, if_true, forall_const]
    cases htext : t.readText file with
    | error fault => simp
    | ok text =>
      cases hpatch : Patch.parse? text with
      | none => simp [Except.toOption, hpatch]
      | some patch => simp [Except.toOption, hpatch]
  · simp [hexists]

/-- A legible file has a patch when it is there. -/
theorem exists_patchOf?_iff {t : FileTree} {file : Path} (h : IsLegible t file) :
    (∃ patch, patchOf? t file = some patch) ↔ t.pathExists file = true := by
  unfold patchOf?
  by_cases hexists : t.pathExists file = true
  · obtain ⟨text, patch, htext, hpatch⟩ := h hexists
    simp [hexists, htext, hpatch, Except.toOption]
  · simp [hexists]

/-! ## The environment -/

namespace Environment

variable (env : Environment)

/-- The file that stands for all others: the one that is given, or else the one in the variable
`PLINT_CONFIG`. -/
def Names (argument : Option Path) (file : Path) : Prop :=
  argument = some file ∨ argument = none ∧ env "PLINT_CONFIG" = some file.text

/-- The number in a variable. -/
def number? (name : String) : Option Nat :=
  (env name).bind fun value => (Natural.parse (Text.trim value)).toOption

/-- The method of counting in a variable. -/
def methodNamed? (name : String) : Option CountingMethod := (env name).bind CountingMethod.ofText?

/-- The variables that hold numbers. -/
def numberNames : List String :=
  ["PLINT_BUDGET_METADATA_TARGET", "PLINT_BUDGET_METADATA_WARNING", "PLINT_BUDGET_BODY_TARGET",
    "PLINT_BUDGET_BODY_WARNING", "PLINT_BUDGET_BODY_CRITICAL"]

/-- Whether every variable that is set to override a setting has a value that can be read. -/
structure IsLegible : Prop where
  numbers : ∀ name ∈ numberNames, ∀ value, env name = some value →
    ∃ n, Natural.parse (Text.trim value) = .ok n
  method : ∀ value, env "PLINT_TOKENIZER" = some value →
    ∃ method, CountingMethod.ofText? value = some method

variable {env}

theorem namedFile?_eq_some_iff {argument : Option Path} {file : Path} :
    env.namedFile? argument = some file ↔ env.Names argument file := by
  unfold namedFile? Names
  cases argument with
  | some given => simp
  | none =>
    have htext (text : Text) : Path.mk text = file ↔ text = file.text := by
      cases file
      simp
    simp [htext]

theorem environmentName_mem (threshold : Threshold) : threshold.environmentName ∈ numberNames := by
  cases threshold <;> decide

theorem threshold?_eq_ok_iff {threshold : Threshold} {found : Option Nat} :
    env.threshold? threshold = .ok found ↔
      (∀ value, env threshold.environmentName = some value →
        ∃ n, Natural.parse (Text.trim value) = .ok n) ∧
      env.number? threshold.environmentName = found := by
  unfold threshold? number?
  cases env threshold.environmentName with
  | none => simp
  | some value => cases hvalue : Natural.parse (Text.trim value) <;> simp [hvalue, Except.toOption]

theorem method?_eq_ok_iff {found : Option CountingMethod} :
    env.method? = .ok found ↔
      (∀ value, env "PLINT_TOKENIZER" = some value →
        ∃ method, CountingMethod.ofText? value = some method) ∧
      env.methodNamed? "PLINT_TOKENIZER" = found := by
  unfold method? methodNamed? CountingMethod.parse
  cases env "PLINT_TOKENIZER" with
  | none => simp
  | some value => cases hvalue : CountingMethod.ofText? value <;> simp [hvalue, Except.map]

/-- The patch of an environment whose variables can be read. -/
def read (env : Environment) : Patch where
  threshold threshold := env.number? threshold.environmentName
  method := env.methodNamed? "PLINT_TOKENIZER"

theorem patch_eq_ok_iff {p : Patch} : env.patch = .ok p ↔ env.IsLegible ∧ p = env.read := by
  unfold patch
  simp only [bind_eq_ok_iff, threshold?_eq_ok_iff, method?_eq_ok_iff]
  constructor
  · rintro ⟨_, ⟨h₁, rfl⟩, _, ⟨h₂, rfl⟩, _, ⟨h₃, rfl⟩, _, ⟨h₄, rfl⟩, _, ⟨h₅, rfl⟩, _, ⟨h₆, rfl⟩, hp⟩
    refine ⟨⟨?_, h₆⟩, ?_⟩
    · exact List.forall_mem_cons.mpr ⟨h₁, List.forall_mem_cons.mpr ⟨h₂, List.forall_mem_cons.mpr
        ⟨h₃, List.forall_mem_cons.mpr ⟨h₄, List.forall_mem_singleton.mpr h₅⟩⟩⟩⟩
    · obtain rfl := Except.ok.inj hp
      unfold read
      congr
      funext threshold
      cases threshold <;> rfl
  · rintro ⟨h, rfl⟩
    have hread (threshold : Threshold) := h.numbers _ (environmentName_mem threshold)
    refine ⟨_, ⟨hread _, rfl⟩, _, ⟨hread _, rfl⟩, _, ⟨hread _, rfl⟩, _, ⟨hread _, rfl⟩, _,
      ⟨hread _, rfl⟩, _, ⟨h.method, rfl⟩, ?_⟩
    refine congrArg Except.ok ?_
    unfold read
    congr
    funext threshold
    cases threshold <;> rfl

end Environment

namespace Settings

/-! ## The settings, one by one -/

/-- The settings files that are looked at, the strongest first: the one that is given or else named
by `PLINT_CONFIG`, alone, or that of the plugin and that of the user. -/
def ruling (env : Environment) (argument : Option Path) (root : Path) : List Path :=
  match argument, env "PLINT_CONFIG" with
  | some file, _ => [file]
  | none, some text => [⟨text⟩]
  | none, none => root.join ".plint.toml".toList ::
    (env.settingsDirectory?.map fun directory => directory.join "plint/config.toml".toList).toList

section
variable (t : FileTree) (env : Environment) (argument : Option Path) (root : Path)

/-- The value of a setting: that of its variable, else that of the strongest file that sets it, else
the standard one. -/
def valueOf {α : Type} (override? : Option α) (get : Patch → Option α) (standard : α) : α :=
  (override? <|> (ruling env argument root).findSome? fun file => (patchOf? t file).bind get).getD
    standard

/-- The value of a threshold, given the name of its variable and its standard value. -/
def numberOf (name : String) (threshold : Threshold) (standard : Nat) : Nat :=
  valueOf t env argument root (env.number? name) (·.threshold threshold) standard

/-- The settings, each found by itself. -/
def expected : Settings where
  limits :=
    { metadataTarget :=
        numberOf t env argument root "PLINT_BUDGET_METADATA_TARGET" .metadataTarget 50
      metadataWarning :=
        numberOf t env argument root "PLINT_BUDGET_METADATA_WARNING" .metadataWarning 100
      bodyTarget := numberOf t env argument root "PLINT_BUDGET_BODY_TARGET" .bodyTarget 500
      bodyWarning := numberOf t env argument root "PLINT_BUDGET_BODY_WARNING" .bodyWarning 800
      bodyCritical := numberOf t env argument root "PLINT_BUDGET_BODY_CRITICAL" .bodyCritical 2500 }
  method :=
    valueOf t env argument root (env.methodNamed? "PLINT_TOKENIZER") (·.method) .automatic

/-- When settings can be loaded. -/
structure Loadable : Prop where
  named : ∀ file, env.Names argument file → t.pathExists file = true
  files : ∀ file ∈ ruling env argument root, IsLegible t file
  environment : env.IsLegible
  metadata : (expected t env argument root).limits.metadataTarget ≤
    (expected t env argument root).limits.metadataWarning
  target : (expected t env argument root).limits.bodyTarget ≤
    (expected t env argument root).limits.bodyWarning
  warning : (expected t env argument root).limits.bodyWarning ≤
    (expected t env argument root).limits.bodyCritical

end

/-! ## Layers -/

variable {t : FileTree} {env : Environment} {argument : Option Path} {root : Path}

/-- The last patch that sets a setting decides it. -/
theorem foldl_apply {α : Type} (read : Settings → α) (get : Patch → Option α)
    (h : ∀ s p, read (apply s p) = (get p).getD (read s)) (patches : List Patch) (s : Settings) :
    read (patches.foldl apply s) = (patches.reverse.findSome? get).getD (read s) := by
  induction patches generalizing s with
  | nil => rfl
  | cons p rest ih =>
    rw [List.foldl_cons, ih, h, List.reverse_cons, List.findSome?_append]
    cases rest.reverse.findSome? get with
    | some value => rfl
    | none => cases hvalue : get p <;> simp [hvalue]

theorem get_limits_apply (s : Settings) (p : Patch) (threshold : Threshold) :
    (apply s p).limits.get threshold = (p.threshold threshold).getD (s.limits.get threshold) :=
  Limits.get_ofThresholds _ threshold

theorem ruling_of_named {file : Path} (h : env.namedFile? argument = some file) :
    ruling env argument root = [file] := by
  rcases Environment.namedFile?_eq_some_iff.mp h with rfl | ⟨rfl, hvariable⟩
  · rfl
  · simp only [ruling, hvariable]

theorem ruling_of_unnamed (h : env.namedFile? argument = none) : ruling env argument root =
    root.join projectFileName.toList :: env.userFile?.toList := by
  unfold Environment.namedFile? at h
  cases argument with
  | some given => cases h
  | none =>
    have hvariable : env "PLINT_CONFIG" = none := by simpa using h
    simp only [ruling, hvariable]
    rfl

/-- The patches of the files that are found, the weakest first. -/
def patchesFound (t : FileTree) (env : Environment) (argument : Option Path) (root : Path) :
    List Patch :=
  ((ruling env argument root).filterMap (patchOf? t)).reverse

theorem filePatches_of_named {file : Path} (h : env.namedFile? argument = some file)
    {patches : List Patch} :
    filePatches t env argument root = .ok patches ↔
      t.pathExists file = true ∧ IsLegible t file ∧ patches = (patchOf? t file).toList := by
  unfold filePatches
  simp only [h, bind_eq_ok_iff, readPatch_eq_ok_iff]
  constructor
  · rintro ⟨found, ⟨hlegible, rfl⟩, hok⟩
    cases hpatch : patchOf? t file with
    | none => simp [hpatch, throw, throwThe, MonadExceptOf.throw] at hok
    | some patch =>
      have hexists := (exists_patchOf?_iff hlegible).mp ⟨patch, hpatch⟩
      simp only [hpatch, pure, Except.pure, Except.ok.injEq] at hok
      exact ⟨hexists, hlegible, hok.symm⟩
  · rintro ⟨hexists, hlegible, rfl⟩
    obtain ⟨patch, hpatch⟩ := (exists_patchOf?_iff hlegible).mpr hexists
    exact ⟨_, ⟨hlegible, rfl⟩, by simp [hpatch, pure, Except.pure]⟩

theorem filePatches_of_unnamed (h : env.namedFile? argument = none) {patches : List Patch} :
    filePatches t env argument root = .ok patches ↔
      (∀ file, env.userFile? = some file → IsLegible t file) ∧
      IsLegible t (root.join projectFileName.toList) ∧
      patches = (env.userFile?.bind (patchOf? t)).toList ++
        (patchOf? t (root.join projectFileName.toList)).toList := by
  -- The rest of the reading stands in both branches on the user's file.
  unfold filePatches
  simp only [h]
  cases env.userFile? with
  | none =>
    simp only [bind_eq_ok_iff, readPatch_eq_ok_iff]
    constructor
    · rintro ⟨_, hnone, _, ⟨hproject, rfl⟩, hok⟩
      obtain rfl := Except.ok.inj hnone
      exact ⟨by simp, hproject, (Except.ok.inj hok).symm⟩
    · rintro ⟨-, hproject, rfl⟩
      exact ⟨_, rfl, _, ⟨hproject, rfl⟩, rfl⟩
  | some user =>
    simp only [bind_eq_ok_iff, readPatch_eq_ok_iff]
    constructor
    · rintro ⟨_, ⟨huser, rfl⟩, _, ⟨hproject, rfl⟩, hok⟩
      exact ⟨fun _ hfile => Option.some.inj hfile ▸ huser, hproject, (Except.ok.inj hok).symm⟩
    · rintro ⟨huser, hproject, rfl⟩
      exact ⟨_, ⟨huser user rfl, rfl⟩, _, ⟨hproject, rfl⟩, rfl⟩

/-- Files succeed together when the named one is there and each that is there can be read. -/
theorem filePatches_eq_ok_iff {patches : List Patch} :
    filePatches t env argument root = .ok patches ↔
      (∀ file, env.Names argument file → t.pathExists file = true) ∧
      (∀ file ∈ ruling env argument root, IsLegible t file) ∧
      patches = patchesFound t env argument root := by
  simp only [← Environment.namedFile?_eq_some_iff]
  cases h : env.namedFile? argument with
  | some file =>
    have hfound : patchesFound t env argument root = (patchOf? t file).toList := by
      rw [patchesFound, ruling_of_named h]
      cases hpatch : patchOf? t file <;> simp [hpatch]
    simp [filePatches_of_named h, ruling_of_named h, hfound]
  | none =>
    have hfound : patchesFound t env argument root = (env.userFile?.bind (patchOf? t)).toList ++
        (patchOf? t (root.join projectFileName.toList)).toList := by
      rw [patchesFound, ruling_of_unnamed h]
      cases env.userFile? with
      | none => cases hproject : patchOf? t (root.join projectFileName.toList) <;> simp [hproject]
      | some user =>
        cases hproject : patchOf? t (root.join projectFileName.toList) <;>
          cases huser : patchOf? t user <;> simp [hproject, huser]
    simp only [filePatches_of_unnamed h, ruling_of_unnamed h, hfound, List.forall_mem_cons,
      Option.mem_toList]
    exact ⟨fun ⟨huser, hproject, hpatches⟩ => ⟨by simp, ⟨hproject, huser⟩, hpatches⟩,
      fun ⟨_, ⟨hproject, huser⟩, hpatches⟩ => ⟨huser, hproject, hpatches⟩⟩

/-- The settings that loading arrives at, before it looks at their order. -/
def layered (t : FileTree) (env : Environment) (argument : Option Path) (root : Path) : Settings :=
  (patchesFound t env argument root ++ [env.read]).foldl apply standard

/-- A setting of the layered settings is decided by its variable or by the strongest file. -/
theorem read_layered {α : Type} (read : Settings → α) (get : Patch → Option α)
    (h : ∀ s p, read (apply s p) = (get p).getD (read s)) :
    read (layered t env argument root) =
      valueOf t env argument root (get env.read) get (read standard) := by
  have hfiles : ((ruling env argument root).filterMap (patchOf? t)).findSome? get =
      (ruling env argument root).findSome? fun file => (patchOf? t file).bind get := by
    rw [← List.head?_filterMap, List.filterMap_filterMap, List.head?_filterMap]
  rw [layered, foldl_apply read get h, List.reverse_append, List.reverse_singleton,
    List.singleton_append, patchesFound, List.reverse_reverse, List.findSome?_cons, hfiles]
  cases hvalue : get env.read <;> simp [valueOf]

/-- Layer by layer or one by one, the settings are the same. -/
theorem layered_eq_expected : layered t env argument root = expected t env argument root := by
  have hlimits : (layered t env argument root).limits.get =
      fun threshold => numberOf t env argument root threshold.environmentName threshold
        (Limits.standard.get threshold) :=
    funext fun threshold => read_layered (fun s => s.limits.get threshold) (·.threshold threshold)
      fun s p => get_limits_apply s p threshold
  have hmethod : (layered t env argument root).method =
      valueOf t env argument root (env.methodNamed? "PLINT_TOKENIZER") (·.method) .automatic :=
    read_layered (·.method) (·.method) fun _ _ => rfl
  calc
    layered t env argument root =
        ⟨Limits.ofThresholds (layered t env argument root).limits.get,
          (layered t env argument root).method⟩ := rfl
    _ = expected t env argument root := by
      rw [hlimits, hmethod]
      rfl

/-- Loading succeeds where the settings are loadable and gives the expected ones. -/
theorem load_eq_ok_iff {settings : Settings} :
    load t env argument root = .ok settings ↔
      Loadable t env argument root ∧ settings = expected t env argument root := by
  unfold load
  simp only [bind_eq_ok_iff, filePatches_eq_ok_iff, Environment.patch_eq_ok_iff]
  constructor
  · rintro ⟨_, ⟨hnamed, hfiles, rfl⟩, _, ⟨hlegible, rfl⟩, h⟩
    rw [← layered, layered_eq_expected] at h
    cases horder : (expected t env argument root).limits.disorder? with
    | some found =>
      rw [horder] at h
      cases h
    | none =>
      rw [horder] at h
      obtain ⟨hmetadata, htarget, hwarning⟩ := Limits.disorder?_eq_none_iff.mp horder
      exact ⟨⟨hnamed, hfiles, hlegible, hmetadata, htarget, hwarning⟩, (Except.ok.inj h).symm⟩
  · rintro ⟨h, rfl⟩
    refine ⟨_, ⟨h.named, h.files, rfl⟩, _, ⟨h.environment, rfl⟩, ?_⟩
    have horder := Limits.disorder?_eq_none_iff.mpr ⟨h.metadata, h.target, h.warning⟩
    rw [← layered, layered_eq_expected, horder]
    rfl

/-- A named file stands for all others: nothing is read from a tree but that file, and nothing from
an environment but its variables. -/
theorem load_of_named {file : Path} (h : env.Names argument file) {t' : FileTree}
    {env' : Environment} {root' : Path} (hvariables : ∀ name, env' name = env name)
    (hexists : t'.pathExists file = t.pathExists file)
    (htext : t'.readText file = t.readText file) :
    load t' env' argument root' = load t env argument root := by
  have hvalue : env'.value? = env.value? := funext hvariables
  have hnamed : env.namedFile? argument = some file := Environment.namedFile?_eq_some_iff.mpr h
  have hnamed' : env'.namedFile? argument = some file := by
    rw [← hnamed, Environment.namedFile?, Environment.namedFile?, hvalue]
  have hread : readPatch t' file = readPatch t file := by
    unfold readPatch
    rw [hexists, htext]
  have hpatch : env'.patch = env.patch := by
    unfold Environment.patch Environment.threshold? Environment.method?
    rw [hvalue]
  unfold load filePatches
  simp only [hnamed, hnamed', hread, hpatch]

/-- Settings can be loaded exactly when the file that is named, on the command line or else by
`PLINT_CONFIG`, is there, every file that is looked at and is there can be read and parsed, every
variable that is set can be read, and the limits that come out are in order. Then every threshold
and the method are, each by itself, what the variable for it says, else what the named file says,
else (without a named file) what `.plint.toml` of the plugin says, else `plint/config.toml` among
the user's settings, else the standard. With a named file no other file counts, whatever it holds
and wherever the user's settings lie. -/
theorem loaded_settings_layered (t : FileTree) (env : Environment) (argument : Option Path)
    (root : Path) :
    ((∃ settings, load t env argument root = .ok settings) ↔ Loadable t env argument root) ∧
    (∀ settings, load t env argument root = .ok settings →
      settings = expected t env argument root) ∧
    ∀ file, env.Names argument file → ∀ (t' : FileTree) (env' : Environment) (root' : Path),
      (∀ name, env' name = env name) → t'.pathExists file = t.pathExists file →
      t'.readText file = t.readText file →
      load t' env' argument root' = load t env argument root := by
  refine ⟨?_, ?_, ?_⟩
  · constructor
    · rintro ⟨settings, h⟩
      exact (load_eq_ok_iff.mp h).1
    · intro h
      exact ⟨_, load_eq_ok_iff.mpr ⟨h, rfl⟩⟩
  · intro settings h
    exact (load_eq_ok_iff.mp h).2
  · intro file hfile t' env' root' hvariables hexists htext
    exact load_of_named hfile hvariables hexists htext

/-- A user's settings file, one of a plugin with a given text, and one that can be named. -/
def layeredTree (project : Text) : FileTree where
  nodes :=
    [(["u".toList], .directory), (["u".toList, "plint".toList], .directory),
      (["u".toList, "plint".toList, "config.toml".toList],
        .file (.text "budget.body_warning = 900\nbudget.body_critical = 3000\n".toList)),
      (["p".toList], .directory),
      (["p".toList, ".plint.toml".toList], .file (.text project)),
      (["n.toml".toList], .file (.text "tokenizer.method = \"approximate\"\n".toList))]
  base := []

/-- An environment with a limit among its variables, with or without a named file. -/
def layeredEnvironment (named? : Option Text) : Environment where
  value? name :=
    if name = "PLINT_CONFIG" then named?
    else if name = "PLINT_BUDGET_BODY_TARGET" then some " 600 ".toList
    else none
  settingsDirectory? := some ⟨"/u".toList⟩
  precise? := none

theorem isLegible_of_parse {file : Path} {text : Text} (htext : t.readText file = .ok text)
    (hparse : (Patch.parse? text).isSome = true) : IsLegible t file := by
  obtain ⟨patch, hpatch⟩ := Option.isSome_iff_exists.mp hparse
  exact fun _ => ⟨text, patch, htext, hpatch⟩

theorem layeredEnvironment_isLegible (named? : Option Text) :
    (layeredEnvironment named?).IsLegible where
  numbers := by
    intro name hname value hvalue
    have hother : name ≠ "PLINT_CONFIG" := by
      rintro rfl
      exact absurd hname (by decide)
    simp only [layeredEnvironment, if_neg hother] at hvalue
    split at hvalue
    · obtain rfl := Option.some.inj hvalue
      exact ⟨600, by decide⟩
    · cases hvalue
  method := by
    intro value hvalue
    have hunset : layeredEnvironment named? "PLINT_TOKENIZER" = none := rfl
    rw [hunset] at hvalue
    cases hvalue

/-- Without a named file each layer adds what those above it leave open; with one the plugin's file
may as well be malformed. -/
theorem layered_settings_loaded :
    load (layeredTree "budget.body_critical = 4000\n".toList) (layeredEnvironment none) none
      ⟨"/p".toList⟩ = .ok ⟨⟨50, 100, 600, 900, 4000⟩, .automatic⟩ ∧
    (layeredEnvironment (some "/n.toml".toList)).Names none ⟨"/n.toml".toList⟩ ∧
    ¬ IsLegible (layeredTree "=".toList) ⟨"/p/.plint.toml".toList⟩ ∧
    load (layeredTree "=".toList) (layeredEnvironment (some "/n.toml".toList)) none
      ⟨"/p".toList⟩ = .ok ⟨⟨50, 100, 600, 800, 2500⟩, .approximate⟩ := by
  have hloaded {t : FileTree} {env : Environment} {settings : Settings}
      (h : Loadable t env none ⟨"/p".toList⟩)
      (hsame : expected t env none ⟨"/p".toList⟩ = settings) :
      load t env none ⟨"/p".toList⟩ = .ok settings := by
    obtain ⟨hloads, hvalues, -⟩ := loaded_settings_layered t env none ⟨"/p".toList⟩
    obtain ⟨found, hfound⟩ := hloads.mpr h
    rw [hfound, hvalues found hfound, hsame]
  refine ⟨hloaded ?unnamed ?values, .inr ⟨rfl, rfl⟩, ?malformed, ?named⟩
  case values => decide +kernel
  case unnamed =>
    have hvalues : expected (layeredTree "budget.body_critical = 4000\n".toList)
        (layeredEnvironment none) none ⟨"/p".toList⟩ = ⟨⟨50, 100, 600, 900, 4000⟩, .automatic⟩ := by
      decide +kernel
    refine ⟨?_, ?_, layeredEnvironment_isLegible none, by rw [hvalues]; decide,
      by rw [hvalues]; decide, by rw [hvalues]; decide⟩
    · rintro file (hargument | ⟨-, hvariable⟩)
      · cases hargument
      · cases hvariable
    · have hproject : IsLegible (layeredTree "budget.body_critical = 4000\n".toList)
          ⟨"/p/.plint.toml".toList⟩ := isLegible_of_parse rfl (by decide +kernel)
      have huser : IsLegible (layeredTree "budget.body_critical = 4000\n".toList)
          ⟨"/u/plint/config.toml".toList⟩ := isLegible_of_parse rfl (by decide +kernel)
      exact List.forall_mem_cons.mpr ⟨hproject, List.forall_mem_singleton.mpr huser⟩
  case malformed =>
    intro h
    obtain ⟨text, patch, htext, hpatch⟩ := h (by decide)
    obtain rfl : "=".toList = text := Except.ok.inj htext
    have hnone : (Patch.parse? "=".toList).isNone = true := by decide +kernel
    rw [hpatch] at hnone
    cases hnone
  case named =>
    have hvalues : expected (layeredTree []) (layeredEnvironment (some "/n.toml".toList)) none
        ⟨"/p".toList⟩ = ⟨⟨50, 100, 600, 800, 2500⟩, .approximate⟩ := by
      decide +kernel
    have hnamed : Loadable (layeredTree []) (layeredEnvironment (some "/n.toml".toList)) none
        ⟨"/p".toList⟩ := by
      refine ⟨?_, ?_, layeredEnvironment_isLegible _, by rw [hvalues]; decide,
        by rw [hvalues]; decide, by rw [hvalues]; decide⟩
      · rintro file (hargument | ⟨-, hvariable⟩)
        · cases hargument
        · obtain rfl : file = ⟨"/n.toml".toList⟩ :=
            congrArg Path.mk (Option.some.inj hvariable).symm
          decide
      · have hfile : IsLegible (layeredTree []) ⟨"/n.toml".toList⟩ :=
          isLegible_of_parse rfl (by decide +kernel)
        exact List.forall_mem_singleton.mpr hfile
    obtain ⟨-, -, halone⟩ := loaded_settings_layered (layeredTree [])
      (layeredEnvironment (some "/n.toml".toList)) none ⟨"/p".toList⟩
    rw [halone ⟨"/n.toml".toList⟩ (.inr ⟨rfl, rfl⟩) _ _ ⟨"/p".toList⟩ (fun _ => rfl) (by decide)
      (by decide), hloaded hnamed hvalues]

end Settings
end PluginLint
