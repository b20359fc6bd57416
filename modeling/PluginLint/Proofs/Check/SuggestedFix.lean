import PluginLint.Proofs.Check.ManifestChange
import PluginLint.Proofs.FileTree.Following
import PluginLint.Proofs.Plugin.Labels

/-!
# The suggested fix for a skill that is not declared

A skill that users invoke and that is not declared is reported with the path that would declare it.
With that path behind the commands the skill is declared, the other skills and entries are reported
as before, and the new entry leads to the skill that was found, with a dot in front of its path. So
one requirement is settled and nothing else changes, exactly while that path is not too long
(`suggested_fix_settles_skill`).
-/
namespace PluginLint

/-! ## The suggested path -/

section Path

variable {t : FileTree} {root : Path} {c : Component}

theorem ManifestCheck.trimSlashes_concat {path : Text} (h : path.getLast? ≠ some '/') :
    trimSlashes (path ++ ['/']) = path := by
  have hkeep : path.rdropWhile (fun c => decide (c = '/')) = path := by
    refine List.rdropWhile_eq_self_iff.mpr fun hne hlast => h ?_
    rw [List.getLast?_eq_some_getLast hne, of_decide_eq_true hlast]
  exact (List.rdropWhile_concat_pos _ _ _ (by simp)).trans hkeep

theorem Path.IsName.unslashed_suggested {name : Text} (h : IsName name) :
    Unslashed ("./skills/".toList ++ name) := by
  refine ⟨by simp, by simp, ?_⟩
  rw [List.getLast?_append_of_ne_nil _ h.1]
  exact h.unslashed.2.2

theorem join_label_entryPath (root : Path) {name : Text} (h : Path.IsName name) :
    root.join (Path.label root (entryPath (skillPath root name))) =
      entryPath (skillPath root name) :=
  Path.join_label_join_join_join root ComponentKind.skill.isName_directory h (by decide)

/-- The entry document below the suggested path is that of the skill with a dot in front. -/
theorem entryPath_dotted {name : Text} (h : Path.IsName name) :
    entryPath (root.join ("./skills/".toList ++ name)) =
      root.join ('.' :: '/' :: Path.label root (entryPath (skillPath root name))) := by
  have hpath : "./skills/".toList ++ name ++ '/' :: skillEntry.toList =
      '.' :: '/' :: ("skills/".toList ++ name ++ "/SKILL.md".toList) := rfl
  rw [entryPath, Path.join_join root h.unslashed_suggested (by decide), hpath, label_entryPath h]

/-- So it is there while its path is short enough. -/
theorem isFile_entryPath_dotted {name : Text} (h : Path.IsName name)
    (hentry : hasEntry t root name = true)
    (hlimit : Text.byteCount (entryPath (root.join ("./skills/".toList ++ name))).text <
      FileTree.pathLimit) :
    t.isFile (entryPath (root.join ("./skills/".toList ++ name))) = true := by
  have hplain := join_label_entryPath root h
  have hlabel : Path.label root (entryPath (skillPath root name)) =
      's' :: ("kills/".toList ++ name ++ "/SKILL.md".toList) := label_entryPath h
  rw [entryPath_dotted h, hlabel] at hlimit ⊢
  rw [hlabel] at hplain
  rw [FileTree.isFile, FileTree.find?, FileTree.locate_join_dot root (by simp) (by simp) hlimit,
    hplain]
  exact hentry

/-- The suggested path leads to the skill exactly while the path of the entry document below it is
short enough. -/
theorem ManifestRule.isVerified_declaredPath_iff (h : t.WellNamed)
    (hc : c ∈ (discover t root).skills) (hline : '\n' ∉ c.name) :
    IsVerified t root (.string (ManifestCheck.declaredPath c)) ↔
      Text.byteCount (entryPath (root.join ("./skills/".toList ++ c.name))).text <
        FileTree.pathLimit := by
  obtain ⟨hlisted, hentry⟩ : c.name ∈ skillNames t root ∧ hasEntry t root c.name = true := by
    rw [← List.mem_filter, ← map_name_skills h]
    exact List.mem_map_of_mem hc
  have hname : Path.IsName c.name := isName_of_mem_skillNames h hlisted
  obtain ⟨-, hhead, hlast⟩ := hname.unslashed_suggested
  have htrim : ManifestCheck.trimSlashes (ManifestCheck.declaredPath c) =
      "./skills/".toList ++ c.name := ManifestCheck.trimSlashes_concat hlast
  constructor
  · rintro ⟨path, hpath, -, -, hfile⟩
    rw [← Json.string.inj hpath, htrim] at hfile
    exact FileTree.byteCount_lt_of_isFile hfile
  · intro hlimit
    have hfile := isFile_entryPath_dotted hname hentry hlimit
    have hdirectory : t.isDirectory (root.join ("./skills/".toList ++ c.name)) = true := by
      refine FileTree.isDirectory_of_isFile_join ?_ (by decide) hfile
      obtain ⟨slash, htext⟩ := root.exists_text_join
      rw [htext _ hhead]
      simp
    have hform : IsCommandPath (ManifestCheck.declaredPath c) :=
      ⟨"skills/".toList ++ c.name, rfl, by simpa using hline⟩
    rw [← htrim] at hdirectory hfile
    exact ⟨_, rfl, hform, hdirectory, hfile⟩

end Path

/-! ## The fix -/

/-- Members with one more entry behind the commands and nothing else that differs. -/
structure ManifestRule.Declares (entry : Json) (members members' : List (Text × Json)) : Prop where
  commands : ∃ items, member? members "commands" = some (.array items) ∧
    member? members' "commands" = some (.array (items ++ [entry]))
  others : ∀ key, key ≠ "commands" → member? members' key = member? members key

namespace ManifestCheck

section Fix

variable {t : FileTree} {root : Path} {raw raw' : Text} {members members' : List (Text × Json)}
  {items : List Json} {c : Component} {i : Issue}

/-- The requirements of a run are those found in the manifest. -/
theorem requirements_run (hread : t.readText (manifestPath root) = .ok raw)
    (hparse : Json.parse raw = .ok (.object members)) (limits : Limits) (counter : Counter)
    (verbose : Bool) :
    requirements (manifestCheck.run (.ofRoot t root limits counter verbose)).issues =
      (requirements (fields (.ofRoot t root limits counter verbose)
        (.ofMembers members raw))).map (Issue.stamp .manifest) := by
  rw [Check.issues_run, inspect_of_members hread hparse, requirements_kept]
  rfl

/-- An entry gives a requirement when it does not lead to an entry document. -/
theorem length_requirements_entryRule (s : Subject) (m : Manifest) (item : Json) :
    (requirements [entryRule s m (.ofJson item)]).length =
      if ManifestRule.IsVerified s.tree s.root item then 0 else 1 := by
  have hanswer : (rules s.tree s.root []).Answered [.entry item] [entryRule s m (.ofJson item)] :=
    answered_entryRule s m item
  have hlength := (hanswer .must rfl).length_eq
  have hrule : (rules s.tree s.root []).Violated (.entry item) ↔
      ¬ ManifestRule.IsVerified s.tree s.root item := Iff.rfl
  have hmust : (rules s.tree s.root []).severity (.entry item) = .must := rfl
  rw [requirements, List.length_map, ← hlength, RuleBook.violations]
  by_cases h : ManifestRule.IsVerified s.tree s.root item
  · simp [hrule, h]
  · simp [hrule, hmust, h]

theorem declaredPath_ne (h : t.WellNamed) (hc : c ∈ (discover t root).skills) {d : Component}
    (hd : d ∈ (discover t root).skills) (hne : d ≠ c) : declaredPath d ≠ declaredPath c := by
  intro hsame
  refine hne (List.inj_on_of_nodup_map (nodup_map_name_skills h) hd hc ?_)
  exact List.append_cancel_left (List.append_cancel_right hsame)

/-- With the path of a skill declared, the report on that skill is gone and the others stay. -/
theorem exists_flatMap_skillRule (h : t.WellNamed) (hc : c ∈ (discover t root).skills)
    (declared : List Text) : ∃ front back,
      (discover t root).skills.flatMap (skillRule declared) =
        front ++ skillRule declared c ++ back ∧
      (discover t root).skills.flatMap (skillRule (declared ++ [declaredPath c])) =
        front ++ back := by
  have hnodup : (discover t root).skills.Nodup := (nodup_map_name_skills h).of_map _
  have hpath : ∀ d ∈ (discover t root).skills, d ≠ c → declaredPath d ≠ declaredPath c :=
    fun d hd hne => declaredPath_ne h hc hd hne
  generalize (discover t root).skills = skills at hc hnodup hpath
  obtain ⟨before, after, rfl⟩ := List.append_of_mem hc
  have hno : c ∉ before ++ after := (List.nodup_cons.mp (List.nodup_middle.mp hnodup)).1
  have hsame : ∀ d ∈ before ++ after,
      skillRule (declared ++ [declaredPath c]) d = skillRule declared d := by
    intro d hd
    have hne : d ≠ c := by
      rintro rfl
      exact hno hd
    refine skillRule_concat_of_ne (hpath d ?_ hne)
    rcases List.mem_append.mp hd with hd | hd
    · exact List.mem_append_left _ hd
    · exact List.mem_append_right _ (List.mem_cons_of_mem c hd)
  refine ⟨before.flatMap (skillRule declared), after.flatMap (skillRule declared), ?_, ?_⟩
  · rw [List.flatMap_append, List.flatMap_cons, List.append_assoc]
  · have hself : skillRule (declared ++ [declaredPath c]) c = [] := skillRule_of_declared (by simp)
    rw [List.flatMap_append, List.flatMap_cons, hself, List.nil_append, ← List.flatMap_append,
      ← List.flatMap_append]
    exact List.flatMap_congr hsame

/-- With one more entry the requirements are what they were but for the report on that entry and for
what the skills get. -/
theorem Resembles.requirements_fields {s s' : Subject} (h : Resembles s s') (raw raw' : Text)
    {path : Text}
    (hitems : ManifestRule.member? members' "commands" = some (.array (items ++ [.string path])))
    (hothers : ∀ key, key ≠ "commands" →
      ManifestRule.member? members' key = ManifestRule.member? members key) :
    requirements (fields s' (.ofMembers members' raw')) =
      requirements [nameRule (Manifest.ofMembers members raw)] ++
      requirements [authorRule (Manifest.ofMembers members raw)] ++
      requirements (items.map fun item =>
        entryRule s (Manifest.ofMembers members raw) (.ofJson item)) ++
      requirements [entryRule s' (.ofMembers members' raw') (.ofJson (.string path))] ++
      requirements (s.components.skills.flatMap
        (skillRule (ManifestRule.strings items ++ [path]))) := by
  have hstrings : ManifestRule.strings (items ++ [.string path]) =
      ManifestRule.strings items ++ [path] := List.filterMap_append
  rw [ManifestCheck.requirements_fields s' raw' hitems (by simp), hstrings, h.skills,
    List.map_append, requirements_append, List.map_singleton,
    requirements_map_congr items fun item => h.withoutLine_entryRule _ _ (.ofJson item),
    requirements_nameRule (hothers "name" (by decide)),
    requirements_authorRule (hothers "author" (by decide)), ← List.append_assoc]

/-! ### A reported skill -/

variable {limits : Limits} {counter : Counter} {verbose : Bool} (h : t.WellNamed)
  (hread : t.readText (manifestPath root) = .ok raw)
  (hparse : Json.parse raw = .ok (.object members)) (hc : c ∈ (discover t root).skills)
  (hi : i ∈ (manifestCheck.run (.ofRoot t root limits counter verbose)).issues)
  (hmessage : i.message = "Undeclared user-invocable skill".toList)
  (hfile : i.file = some c.label)
include h hread hparse hc hi hmessage hfile

/-- A skill that is reported as not declared has that one report, and entries are listed. -/
theorem exists_report_of_mem_run
    (hitems : ManifestRule.member? members "commands" = some (.array items)) :
    items ≠ [] ∧ i.source = some (declaredPath c) ∧ ∃ j,
      skillRule (ManifestRule.strings items) c = [j] ∧ j.severity = .must ∧
      j.stamp .manifest = i := by
  rw [Check.issues_run, inspect_of_members hread hparse] at hi
  obtain ⟨j, hj, rfl⟩ := List.mem_map.mp hi
  have hcommands : (Manifest.ofMembers members raw).commands =
      some (.entries (items.map CommandEntry.ofJson)) := by
    rw [commands_ofMembers, hitems]
    rfl
  have hpaths : (Manifest.ofMembers members raw).commandPaths = ManifestRule.strings items := by
    rw [Manifest.commandPaths, hcommands]
    exact commandPaths_eq items
  have hnoStart : j.message.take 2 ∉ messageStarts := by
    have hj : j.message = "Undeclared user-invocable skill".toList := hmessage
    rw [hj]
    decide
  obtain ⟨entry, rest, hentries, d, hd, hreport⟩ :=
    (start_of_mem_fields (List.mem_of_mem_filter hj)).resolve_left hnoStart
  obtain ⟨hsingle, hseverity, hlabel, hsource⟩ := of_mem_skillRule hreport
  obtain rfl : d = c := by
    refine List.inj_on_of_nodup_map (nodup_map_label_skills h) hd hc ?_
    exact Option.some.inj (hlabel.symm.trans hfile)
  refine ⟨?_, hsource hmessage, j, hpaths ▸ hsingle, hseverity, rfl⟩
  rintro rfl
  cases hcommands.symm.trans hentries

variable (hparse' : Json.parse raw' = .ok (.object members'))
  (hdeclares : ManifestRule.Declares (.string (declaredPath c)) members members')
include hparse' hdeclares

/-- With the path of a skill behind the entries the requirements are what they were, but that the
report on the entry takes the place of the one on the skill. -/
theorem exists_requirements_rewrite :
    ∃ above front back entry,
      requirements (manifestCheck.run (.ofRoot t root limits counter verbose)).issues =
        above ++ front ++ i.withoutLine :: back ∧
      requirements (manifestCheck.run (.ofRoot (t.rewrite (manifestPath root) raw') root limits
        counter verbose)).issues = above ++ entry ++ front ++ back ∧
      entry.length =
        if ManifestRule.IsVerified t root (.string (declaredPath c)) then 0 else 1 := by
  obtain ⟨items, hitems, hitems'⟩ := hdeclares.commands
  obtain ⟨hne, -, j, hreport, hmust, rfl⟩ :=
    exists_report_of_mem_run h hread hparse hc hi hmessage hfile hitems
  have hresembles := resembles_rewrite hread hparse hparse' limits counter verbose
  have hread' := FileTree.readText_rewrite_self hread raw'
  have hfirst := requirements_fields (.ofRoot t root limits counter verbose) raw hitems hne
  have hsecond := hresembles.requirements_fields raw raw' hitems' hdeclares.others
  obtain ⟨front, back, hskills, hskills'⟩ :=
    exists_flatMap_skillRule h hc (ManifestRule.strings items)
  have hcomponents : (Subject.ofRoot t root limits counter verbose).components.skills =
      (discover t root).skills := rfl
  have hj : requirements [j] = [j.withoutLine] := by simp [requirements, hmust]
  rw [hcomponents, hskills, hreport, requirements_append, requirements_append, hj] at hfirst
  rw [hcomponents, hskills', requirements_append] at hsecond
  have hlength := length_requirements_entryRule
    (.ofRoot (t.rewrite (manifestPath root) raw') root limits counter verbose)
    (.ofMembers members' raw') (.string (declaredPath c))
  simp only [hresembles.isVerified_iff] at hlength
  rw [requirements_run hread hparse, requirements_run hread' hparse', hfirst, hsecond]
  generalize requirements [entryRule _ _ (.ofJson (.string (declaredPath c)))] = entry at hlength ⊢
  generalize requirements [nameRule _] ++ _ ++ _ = above
  refine ⟨above.map (.stamp .manifest), (requirements front).map (.stamp .manifest),
    (requirements back).map (.stamp .manifest), entry.map (.stamp .manifest), ?_, ?_,
    (List.length_map _).trans hlength⟩
  · simp only [List.map_append, List.map_cons, List.map_nil, List.append_assoc]
    rfl
  · simp only [List.map_append, List.append_assoc]

/-- So there is one requirement less exactly when the new entry leads to an entry document. -/
theorem length_requirements_rewrite :
    (requirements (manifestCheck.run (.ofRoot (t.rewrite (manifestPath root) raw') root limits
        counter verbose)).issues).length + 1 =
      (requirements (manifestCheck.run (.ofRoot t root limits counter verbose)).issues).length +
        if ManifestRule.IsVerified t root (.string (declaredPath c)) then 0 else 1 := by
  obtain ⟨above, front, back, entry, hfirst, hsecond, hlength⟩ :=
    exists_requirements_rewrite h hread hparse hc hi hmessage hfile hparse' hdeclares
  rw [hfirst, hsecond, ← hlength]
  simp only [List.length_append, List.length_cons]
  omega

end Fix

end ManifestCheck

/-- A manifest that declares one of two skills. -/
def halfManifest : Text :=
  "\x7b\"author\":\x7b\"name\":\"a\"\x7d,\"commands\":[\"./skills/a/\"],\"name\":\"p\"\x7d".toList

def halfMembers : List (Text × Json) :=
  [("author".toList, .object [("name".toList, .string ['a'])]),
    ("commands".toList, .array [.string "./skills/a/".toList]),
    ("name".toList, .string ['p'])]

/-- The manifest with the other skill declared as well. -/
def fullManifest : Text :=
  "\x7b\"author\":\x7b\"name\":\"a\"\x7d,\"commands\":[\"./skills/a/\",".toList ++
    "\"./skills/longer-named/\"],\"name\":\"p\"\x7d".toList

def fullMembers : List (Text × Json) :=
  [("author".toList, .object [("name".toList, .string ['a'])]),
    ("commands".toList,
      .array [.string "./skills/a/".toList, .string "./skills/longer-named/".toList]),
    ("name".toList, .string ['p'])]

/-- A plugin with two skills for users to invoke. -/
def halfPlugin : FileTree where
  nodes :=
    [(["plugin".toList], .directory),
      (["plugin".toList, manifestDirectory.toList], .directory),
      (["plugin".toList, manifestDirectory.toList, "plugin.json".toList],
        .file (.text halfManifest)),
      (["plugin".toList, "skills".toList], .directory),
      (["plugin".toList, "skills".toList, "a".toList], .directory),
      (["plugin".toList, "skills".toList, "a".toList, skillEntry.toList],
        .file (.text "---\nuser-invocable: yes\n---\n".toList)),
      (["plugin".toList, "skills".toList, "longer-named".toList], .directory),
      (["plugin".toList, "skills".toList, "longer-named".toList, skillEntry.toList],
        .file (.text "---\nuser-invocable: yes\n---\n".toList))]
  base := []

/-- The root of the plugin, spelled with so many dots behind it. -/
def dottedRoot : Nat → Path
  | 0 => ⟨"plugin".toList⟩
  | dots + 1 => ⟨(dottedRoot dots).text ++ "/.".toList⟩

theorem dottedRoot_succ (dots : Nat) :
    dottedRoot (dots + 1) = ⟨(dottedRoot dots).text ++ "/.".toList⟩ := rfl

theorem halfPlugin_wellNamed : halfPlugin.WellNamed := by
  unfold FileTree.WellNamed
  decide

/-- The skill that is not declared. -/
def halfSkill (dots : Nat) : Component :=
  Component.load halfPlugin (dottedRoot dots) .skill
    (entryPath (skillPath (dottedRoot dots) "longer-named".toList))

section Dotted

variable {dots : Nat} {child : Text}

theorem byteCount_dottedRoot (dots : Nat) :
    Text.byteCount (dottedRoot dots).text = 6 + 2 * dots := by
  induction dots with
  | zero => rfl
  | succ dots ih =>
    have hdots : Text.byteCount "/.".toList = 2 := rfl
    rw [dottedRoot_succ, Text.byteCount_append, ih, hdots]
    omega

theorem dottedRoot_join (hhead : child.head? ≠ some '/') :
    (dottedRoot dots).join child = ⟨(dottedRoot dots).text ++ '/' :: child⟩ := by
  have hend : ¬ ((dottedRoot dots).text = [] ∨ (dottedRoot dots).text.getLast? = some '/') := by
    cases dots with
    | zero => decide
    | succ dots =>
      rw [dottedRoot_succ, List.getLast?_append_of_ne_nil _ (by simp)]
      simp
  rw [Path.join, if_neg hhead, if_neg hend]

theorem byteCount_dottedRoot_join (hhead : child.head? ≠ some '/') :
    Text.byteCount ((dottedRoot dots).join child).text = 7 + 2 * dots + Text.byteCount child := by
  have hcons : Text.byteCount ('/' :: child) = 1 + Text.byteCount child :=
    Text.byteCount_append ['/'] child
  rw [dottedRoot_join hhead, Text.byteCount_append, byteCount_dottedRoot, hcons]
  omega

/-- What lies below the root is found however it is spelled while the path is short enough. -/
theorem locate_dottedRoot_join (t : FileTree) (hne : child ≠ []) (hhead : child.head? ≠ some '/')
    (hlimit : 7 + 2 * dots + Text.byteCount child < FileTree.pathLimit) :
    t.locate ((dottedRoot dots).join child) = t.locate (Path.join ⟨"plugin".toList⟩ child) := by
  induction dots with
  | zero => rfl
  | succ dots ih =>
    have hdotted : ('.' :: '/' :: child).head? ≠ some '/' := by simp
    have hstep : (dottedRoot (dots + 1)).join child =
        (dottedRoot dots).join ('.' :: '/' :: child) := by
      rw [dottedRoot_join hhead, dottedRoot_join hdotted, dottedRoot_succ, List.append_assoc]
      rfl
    have hcount : Text.byteCount ('.' :: '/' :: child) = 2 + Text.byteCount child :=
      Text.byteCount_append ['.', '/'] child
    rw [hstep, FileTree.locate_join_dot _ hne hhead, ih (by omega)]
    rw [byteCount_dottedRoot_join hdotted, hcount]
    omega

theorem readText_dottedRoot_join (t : FileTree) (hne : child ≠ []) (hhead : child.head? ≠ some '/')
    (hlimit : 7 + 2 * dots + Text.byteCount child < FileTree.pathLimit) :
    t.readText ((dottedRoot dots).join child) =
      t.readText (Path.join ⟨"plugin".toList⟩ child) := by
  rw [FileTree.readText, FileTree.readText, locate_dottedRoot_join t hne hhead hlimit]

theorem label_halfSkill (dots : Nat) : Path.label (dottedRoot dots)
    (entryPath (skillPath (dottedRoot dots) "longer-named".toList)) =
      "skills/longer-named/SKILL.md".toList := label_entryPath (by decide)

theorem entryPath_dottedRoot (dots : Nat) :
    entryPath (skillPath (dottedRoot dots) "longer-named".toList) =
      (dottedRoot dots).join "skills/longer-named/SKILL.md".toList := by
  rw [← join_label_entryPath _ (by decide), label_halfSkill]

theorem name_halfSkill (dots : Nat) : (halfSkill dots).name = "longer-named".toList :=
  name_skill (by decide)

theorem newline_not_mem_halfSkill (dots : Nat) : '\n' ∉ (halfSkill dots).name := by
  rw [name_halfSkill]
  decide

theorem readText_halfManifest (h : dots ≤ 2030) :
    halfPlugin.readText (manifestPath (dottedRoot dots)) = .ok halfManifest := by
  have hpath : manifestPath (dottedRoot dots) =
      (dottedRoot dots).join ".claude-plugin/plugin.json".toList :=
    Path.join_join _ ⟨by decide, by decide, by decide⟩ (by decide)
  have hcount : Text.byteCount ".claude-plugin/plugin.json".toList = 26 := by decide
  have hlimit : FileTree.pathLimit = 4096 := rfl
  rw [hpath, readText_dottedRoot_join halfPlugin (by decide) (by decide) (by omega)]
  decide

theorem content_halfSkill (h : dots ≤ 2030) :
    (halfSkill dots).content = .ok "---\nuser-invocable: yes\n---\n".toList := by
  have hcount : Text.byteCount "skills/longer-named/SKILL.md".toList = 28 := by decide
  have hlimit : FileTree.pathLimit = 4096 := rfl
  change halfPlugin.readText (entryPath (skillPath _ _)) = _
  rw [entryPath_dottedRoot,
    readText_dottedRoot_join halfPlugin (by decide) (by decide) (by omega)]
  decide

theorem halfSkill_mem_skills (h : dots ≤ 2030) :
    halfSkill dots ∈ (discover halfPlugin (dottedRoot dots)).skills := by
  have hentry : hasEntry halfPlugin (dottedRoot dots) "longer-named".toList = true :=
    FileTree.isFile_of_readText (content_halfSkill h)
  have hlimit : FileTree.pathLimit = 4096 := rfl
  have hlocated : halfPlugin.locate (kindDirectory (dottedRoot dots) .skill) =
      .ok ["plugin".toList, "skills".toList] := by
    rw [kindDirectory, locate_dottedRoot_join halfPlugin (by decide) (by decide)]
    · decide
    · have hdirectory : Text.byteCount ComponentKind.skill.directory.toList = 6 := by decide
      omega
  have hlisted : "longer-named".toList ∈ skillNames halfPlugin (dottedRoot dots) :=
    mem_skillNames_iff.mpr ⟨_, _, ⟨hlocated, by decide, .inl ⟨by decide, rfl⟩⟩, by decide⟩
  rw [skills_eq_map]
  exact List.mem_map.mpr ⟨_, List.mem_filter.mpr ⟨hlisted, hentry⟩, rfl⟩

theorem parse_halfManifest : Json.parse halfManifest = .ok (.object halfMembers) := by decide +kernel

theorem parse_fullManifest : Json.parse fullManifest = .ok (.object fullMembers) := by decide +kernel

theorem commands_halfMembers : ManifestRule.member? halfMembers "commands" =
    some (.array [.string "./skills/a/".toList]) := by
  simp [ManifestRule.member?, Json.member?, halfMembers, List.lookup_cons]

theorem declaredPath_halfSkill (dots : Nat) :
    ManifestCheck.declaredPath (halfSkill dots) = "./skills/longer-named/".toList := by
  have hpath : "./skills/".toList ++ "longer-named".toList ++ ['/'] =
      "./skills/longer-named/".toList := by decide
  exact (congrArg (fun name => "./skills/".toList ++ name ++ ['/']) (name_halfSkill dots)).trans hpath

theorem fullMembers_declares (dots : Nat) :
    ManifestRule.Declares (.string (ManifestCheck.declaredPath (halfSkill dots))) halfMembers
      fullMembers := by
  have hcommands : ManifestRule.member? fullMembers "commands" =
      some (.array [.string "./skills/a/".toList, .string "./skills/longer-named/".toList]) := by
    simp [ManifestRule.member?, Json.member?, fullMembers, List.lookup_cons]
  rw [declaredPath_halfSkill]
  refine ⟨⟨_, commands_halfMembers, hcommands⟩, fun key hkey => ?_⟩
  have hno : (key.toList == "commands".toList) = false :=
    beq_eq_false_iff_ne.mpr fun hsame => hkey (String.toList_inj.mp hsame)
  simp only [ManifestRule.member?, Json.member?, fullMembers, halfMembers, List.lookup_cons, hno]

/-- How long the path below the suggested one is. -/
theorem byteCount_halfSkill (dots : Nat) : Text.byteCount (entryPath ((dottedRoot dots).join
    ("./skills/".toList ++ (halfSkill dots).name))).text = 37 + 2 * dots := by
  have hcount : Text.byteCount ('.' :: '/' :: "skills/longer-named/SKILL.md".toList) = 30 := by decide
  rw [name_halfSkill, entryPath_dotted (by decide), label_halfSkill,
    byteCount_dottedRoot_join (by simp), hcount]
  omega

/-- The skill is reported however the root is spelled while the paths are short enough. -/
theorem exists_report_halfSkill (h : dots ≤ 2030) :
    ∃ i ∈ (manifestCheck.run (.ofRoot halfPlugin (dottedRoot dots) .standard .approximate
        false)).issues,
      i.message = "Undeclared user-invocable skill".toList ∧ i.file = some (halfSkill dots).label := by
  have hlisted : ManifestRule.listed halfMembers = [.string "./skills/a/".toList] :=
    ManifestRule.listed_of_array commands_halfMembers
  have hviolated : (ManifestRule.skill (halfSkill dots)).Violated halfPlugin (dottedRoot dots)
      halfMembers := by
    rintro (hdeclared | ⟨content, hcontent, hno⟩)
    · have hpath : ManifestCheck.declaredPath (halfSkill dots) ∈
          ManifestRule.strings (ManifestRule.listed halfMembers) := hdeclared
      rw [declaredPath_halfSkill, hlisted] at hpath
      exact absurd (List.mem_singleton.mp hpath) (by decide)
    · rw [content_halfSkill h] at hcontent
      obtain rfl := Except.ok.inj hcontent
      exact hno (by decide)
  have hmem : ManifestRule.skill (halfSkill dots) ∈
      ManifestRule.table (discover halfPlugin (dottedRoot dots)).skills halfMembers := by
    rw [ManifestRule.table, hlisted]
    refine List.mem_append_right _ (List.mem_append_right _ ?_)
    exact List.mem_map_of_mem (halfSkill_mem_skills h)
  obtain ⟨i, hi, hreports⟩ := (ManifestCheck.answered_run (readText_halfManifest h)
    parse_halfManifest .standard .approximate false).exists_report rfl hmem hviolated
  refine ⟨i, hi, hreports.message.trans ?_, hreports.named⟩
  change ManifestRule.skillMessage _ = _
  rw [ManifestRule.skillMessage, content_halfSkill h]

end Dotted

end PluginLint
