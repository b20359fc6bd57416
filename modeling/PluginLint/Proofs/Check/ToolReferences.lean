import PluginLint.Check.Tools
import PluginLint.Proofs.Check.Forms
import PluginLint.Proofs.Check.PhraseParts
import PluginLint.Proofs.Text.Search

/-!
# References to tools

A line of prose may refer to a core tool, to the shell without running anything in place, or to the
Task tool with what it is to launch (`ToolReference`). Each sort is said by the language of its
phrase and by where the phrase stands between words. What is found in a line is one issue for each
sort of reference in it, in this order, and nothing where the exempt tool is named
(`tool_references_reported`).
-/
namespace PluginLint

namespace Phrase

open Text (IsCase)

/-! ## Phrases between words -/

/-- Whether a word starts or ends at a place in a line: it has one on exactly one of its sides. -/
def IsBoundary (before after : Text) : Prop := ¬ (EndsWord before ↔ StartsNoWord after)

/-- Whether a phrase stands in a line from a boundary on. -/
def BeginsIn (phrase : Language Char) (line : Text) : Prop :=
  ∃ before part after, line = before ++ part ++ after ∧ part ∈ phrase ∧
    IsBoundary before (part ++ after)

/-- Whether a phrase stands in a line between two boundaries. -/
def SetApartIn (phrase : Language Char) (line : Text) : Prop :=
  ∃ before part after, line = before ++ part ++ after ∧ part ∈ phrase ∧
    IsBoundary before (part ++ after) ∧ IsBoundary (before ++ part) after

theorem isBoundary_iff_endsWord {before after : Text} (h : ¬ StartsNoWord after) :
    IsBoundary before after ↔ EndsWord before := by
  simp [IsBoundary, h]

theorem isBoundary_iff_startsNoWord {before after : Text} (h : ¬ EndsWord before) :
    IsBoundary before after ↔ StartsNoWord after := by
  simp [IsBoundary, h]

section Words

variable {letters part : Text}

theorem opens_word_letter (hsmall : IsSmall letters) (hne : letters ≠ []) :
    Opens (word letters) (¬ StartsNoWord ·) := by
  intro part hpart rest hstart
  obtain ⟨letter, c, more, hletter, hcase, rfl⟩ := exists_letter_of_mem_word hsmall hne hpart
  have hword := Text.isWord_of_isCase hletter hcase
  rw [hstart c rfl] at hword
  cases hword

theorem not_endsWord_append (hsmall : IsSmall letters) (hne : letters ≠ [])
    (h : part ∈ word letters) (before : Text) : ¬ EndsWord (before ++ part) := by
  intro hends
  have hpart := ne_nil_of_mem_word hne h
  have hlast : (before ++ part).getLast? = some (part.getLast hpart) := by
    rw [List.getLast?_append_of_ne_nil _ hpart, List.getLast?_eq_some_getLast hpart]
  have hword := isWord_of_mem_word hsmall h (List.getLast_mem hpart)
  rw [hends _ hlast] at hword
  cases hword

end Words

/-- The search for a phrase finds the parts of its language that stand from a boundary on, when a
part starts with a letter and the test asks for one with something in order behind it. -/
theorem stands_iff_exists_part {phrase : Text → Bool} {language : Language Char}
    {closed : Text → Prop} (hempty : phrase [] = false)
    (hopens : Opens language (¬ StartsNoWord ·))
    (hphrase : ∀ s, phrase s = true ↔ ∃ part ∈ language, ∃ after, s = part ++ after ∧ closed after)
    {line : Text} :
    stands phrase line = true ↔ ∃ before part after, line = before ++ part ++ after ∧
      part ∈ language ∧ IsBoundary before (part ++ after) ∧ closed after := by
  rw [stands, standsFrom_iff hempty]
  constructor
  · intro h
    obtain ⟨before, rest, hline, hrest, -, hends⟩ := h
    obtain ⟨part, hpart, after, rfl, hclosed⟩ := (hphrase rest).mp hrest
    exact ⟨before, part, after, by rw [hline, List.append_assoc], hpart,
      (isBoundary_iff_endsWord (hopens part hpart after)).mpr hends, hclosed⟩
  · intro h
    obtain ⟨before, part, after, hline, hpart, hstart, hclosed⟩ := h
    exact ⟨before, part ++ after, by rw [hline, List.append_assoc],
      (hphrase _).mpr ⟨part, hpart, after, rfl, hclosed⟩, fun _ => rfl,
      (isBoundary_iff_endsWord (hopens part hpart after)).mp hstart⟩

section References

variable {verbs tools : List String} {part : Text}

theorem opens_toolReference (hverbs : PrefixFree verbs) :
    Opens (toolReference verbs tools) (¬ StartsNoWord ·) := by
  have hverb : Opens (oneWord verbs) (¬ StartsNoWord ·) := opens_oneWord fun w hw =>
    opens_word_letter (hverbs.small w hw) (hverbs.nonempty w hw)
  simpa only [toolReference, mul_assoc] using hverb.mul _

theorem not_endsWord_append_toolReference (h : part ∈ toolReference verbs tools) (before : Text) :
    ¬ EndsWord (before ++ part) := by
  obtain ⟨front, -, last, hlast, rfl⟩ := Language.mem_mul.mp h
  rw [← List.append_assoc]
  exact not_endsWord_append (by decide) (by decide) hlast (before ++ front)

/-- The search for a call of a tool finds the references to it that are set apart. -/
theorem stands_toolCall_iff (hverbs : PrefixFree verbs) (htools : PrefixFree ("the" :: tools))
    (hthe : "the" ∉ tools) (hempty : toolCall verbs tools [] = none) {line : Text} :
    stands (fun s => (toolCall verbs tools s).any atWordEnd) line = true ↔
      SetApartIn (toolReference verbs tools) line := by
  have hphrase (s : Text) : (toolCall verbs tools s).any atWordEnd = true ↔
      ∃ part ∈ toolReference verbs tools, ∃ after, s = part ++ after ∧ StartsNoWord after := by
    simp only [Option.any_eq_true, (toolCall_reads hverbs htools hthe).iff, atWordEnd_iff]
    constructor
    · intro ⟨after, ⟨part, hpart, hs⟩, hafter⟩
      exact ⟨part, hpart, after, hs, hafter⟩
    · intro ⟨part, hpart, after, hs, hafter⟩
      exact ⟨after, ⟨part, hpart, hs⟩, hafter⟩
  rw [stands_iff_exists_part (by rw [hempty]; rfl) (opens_toolReference hverbs) hphrase]
  refine exists_congr fun before => exists_congr fun part => exists_congr fun after =>
    and_congr_right fun _ => and_congr_right fun hpart => and_congr_right fun _ => ?_
  exact (isBoundary_iff_startsNoWord (not_endsWord_append_toolReference hpart before)).symm

end References

/-! ## What is launched -/

/-- Letters in any case and hyphens, one at least. -/
def launched : Language Char :=
  {part | part ≠ [] ∧ ∀ c ∈ part, c = '-' ∨ ∃ letter, letter.isLower = true ∧ IsCase letter c}

/-- A reference to the Task tool that goes on with what it is to launch. -/
def taskLaunch : Language Char :=
  toolReference ["use", "call"] ["task"] * blanks * word "to".toList * blanks *
    word "launch".toList * blanks * launched

theorem isLaunched_iff {c : Char} :
    isLaunched c = true ↔ c = '-' ∨ ∃ letter, letter.isLower = true ∧ IsCase letter c := by
  rw [isLaunched, Bool.or_eq_true, beq_iff_eq, or_comm]
  refine or_congr_right ⟨fun hlower => ?_, fun ⟨letter, hletter, hcase⟩ => ?_⟩
  · exact ⟨_, hlower, (Text.foldAscii_eq_iff hlower).mp rfl⟩
  · rwa [(Text.foldAscii_eq_iff hletter).mpr hcase]

theorem opens_launched : Opens launched StartsNoBlank := by
  intro part ⟨hne, hall⟩ rest
  cases part with
  | nil => exact absurd rfl hne
  | cons c part =>
    intro d hd
    obtain rfl : c = d := Option.some.inj hd
    rcases hall c List.mem_cons_self with rfl | ⟨letter, hletter, hcase⟩
    · decide
    · exact Text.isBlank_of_isCase hletter hcase

/-- The words that lead up to what is launched are read as they are meant. -/
theorem launch_reads : Reads
    (fun s => ((toolCall ["use", "call"] ["task"] s).bind gap).bind fun s =>
      ((literal "to".toList s).bind gap).bind fun s => (literal "launch".toList s).bind gap)
    (toolReference ["use", "call"] ["task"] * blanks *
      (word "to".toList * blanks * (word "launch".toList * blanks))) StartsNoBlank := by
  have hto : IsSmall "to".toList := by decide
  have hlaunch : IsSmall "launch".toList := by decide
  have hcall : Reads (toolCall ["use", "call"] ["task"]) _ _ :=
    toolCall_reads ⟨by decide, by decide, by decide⟩ ⟨by decide, by decide, by decide⟩ (by decide)
  have hlast := (literal_reads hlaunch).bind gap_reads (opens_trivial _)
  have hwords := ((literal_reads hto).bind gap_reads (opens_trivial _)).bind hlast
    ((opens_word_startsNoBlank hlaunch (by decide)).mul _)
  exact (hcall.bind gap_reads (opens_trivial _)).bind hwords
    (((opens_word_startsNoBlank hto (by decide)).mul _).mul _)

theorem taskTool_iff {s : Text} :
    taskTool s = true ↔ ∃ part ∈ taskLaunch, ∃ after, s = part ++ after := by
  have hlanguage : taskLaunch = toolReference ["use", "call"] ["task"] * blanks *
      (word "to".toList * blanks * (word "launch".toList * blanks)) * launched := by
    simp only [taskLaunch, mul_assoc]
  rw [hlanguage, taskTool]
  refine ((Option.any_eq_true _ _).trans ⟨fun ⟨rest, hwords, hhead⟩ => ?_, fun h => ?_⟩)
  · obtain ⟨words, hmem, rfl⟩ := launch_reads.sound hwords
    obtain ⟨c, hc, hlaunched⟩ := (Option.any_eq_true _ _).mp hhead
    obtain ⟨after, rfl⟩ := List.head?_eq_some_iff.mp hc
    have hname : [c] ∈ launched := ⟨List.cons_ne_nil c [], fun d hd => by
      rw [List.mem_singleton.mp hd]
      exact isLaunched_iff.mp hlaunched⟩
    exact ⟨words ++ [c], Language.append_mem_mul hmem hname, after, by simp⟩
  · obtain ⟨part, hpart, after, rfl⟩ := h
    obtain ⟨words, hwords, name, hname, rfl⟩ := Language.mem_mul.mp hpart
    refine ⟨name ++ after, ?_, ?_⟩
    · rw [List.append_assoc]
      exact launch_reads.complete hwords (opens_launched name hname after)
    · obtain ⟨hne, hall⟩ := hname
      cases name with
      | nil => exact absurd rfl hne
      | cons c name => exact isLaunched_iff.mpr (hall c List.mem_cons_self)

theorem stands_taskTool_iff {line : Text} :
    stands taskTool line = true ↔ BeginsIn taskLaunch line := by
  have hverb : Opens taskLaunch (¬ StartsNoWord ·) := by
    have hcall : Opens (toolReference ["use", "call"] ["task"]) (¬ StartsNoWord ·) :=
      opens_toolReference ⟨by decide, by decide, by decide⟩
    simpa only [taskLaunch, mul_assoc] using hcall.mul _
  have hphrase (s : Text) : taskTool s = true ↔
      ∃ part ∈ taskLaunch, ∃ after, s = part ++ after ∧ True := by
    simp only [taskTool_iff, and_true]
  rw [stands_iff_exists_part rfl hverb hphrase]
  simp only [and_true]
  rfl

end Phrase

/-! ## What is found in a line -/

/-- What a line of prose may refer to. -/
inductive ToolReference where
  | core
  | shell
  | task
  deriving DecidableEq, Repr

namespace ToolReference

open Phrase

/-- Whether a line refers to something by way of a tool. A reference to the shell does not count
where something is run in place. -/
def StandsIn (line : Text) : ToolReference → Prop
  | .core =>
    SetApartIn
      (toolReference ["use", "call", "using"] ["read", "write", "glob", "grep", "edit"]) line
  | .shell =>
    SetApartIn (toolReference ["use", "call", "using"] ["bash"]) line ∧
      ¬ "Bash(".toList <:+: line ∧ ¬ ['!', '\x60'] <:+: line
  | .task => BeginsIn taskLaunch line

/-- What is found in a line that has such a reference. -/
def issue : ToolReference → Issue
  | .core => ToolsCheck.coreIssue
  | .shell => ToolsCheck.shellIssue
  | .task => ToolsCheck.taskIssue

variable {line : Text}

theorem standsIn_core_iff : stands coreTool line = true ↔ core.StandsIn line :=
  stands_toolCall_iff ⟨by decide, by decide, by decide⟩ ⟨by decide, by decide, by decide⟩
    (by decide) rfl

theorem standsIn_shell_iff :
    (stands shellTool line && !ToolsCheck.runsInPlace line) = true ↔ shell.StandsIn line := by
  have hstands : stands shellTool line = true ↔ SetApartIn _ line :=
    stands_toolCall_iff ⟨by decide, by decide, by decide⟩ ⟨by decide, by decide, by decide⟩
      (by decide) rfl
  rw [Bool.and_eq_true, hstands, Bool.not_eq_true', ToolsCheck.runsInPlace, Bool.or_eq_false_iff,
    ← Bool.not_eq_true, ← Bool.not_eq_true, Text.occurs_iff_isInfix, Text.occurs_iff_isInfix]
  rfl

/-- The test that runs for a reference. -/
def isFound (line : Text) : ToolReference → Bool
  | .core => stands coreTool line
  | .shell => stands shellTool line && !ToolsCheck.runsInPlace line
  | .task => stands taskTool line

theorem isFound_iff {reference : ToolReference} :
    isFound line reference = true ↔ reference.StandsIn line := by
  cases reference with
  | core => exact standsIn_core_iff
  | shell => exact standsIn_shell_iff
  | task => exact stands_taskTool_iff

instance (line : Text) : DecidablePred (StandsIn line) := fun _ => decidable_of_iff _ isFound_iff

theorem filter_standsIn (references : List ToolReference) :
    references.filter (StandsIn line ·) = references.filter (isFound line) :=
  List.filter_congr fun reference _ => by rw [Bool.eq_iff_iff, decide_eq_true_iff, isFound_iff]

theorem map_issue_filter (references : List ToolReference) :
    (references.filter (isFound line)).map issue =
      references.flatMap fun reference =>
        if isFound line reference then [reference.issue] else [] := by
  induction references with
  | nil => rfl
  | cons reference references ih =>
    rw [List.filter_cons, List.flatMap_cons, ← ih]
    split <;> rfl

end ToolReference

/-- What is found in a line of prose is one issue for each sort of reference that stands in it, in
the order of the sorts and none of them twice, and nothing where the exempt tool is named. -/
theorem tool_references_reported (line : Text) :
    ToolsCheck.scanLine line =
      (if "AskUserQuestion".toList <:+: line then []
        else ([.core, .shell, .task].filter (ToolReference.StandsIn line ·)).map
          ToolReference.issue) ∧
    (ToolsCheck.scanLine line).Nodup := by
  have hexempt : (ToolsCheck.exempt.any fun tool => Text.occurs tool.toList line) = true ↔
      "AskUserQuestion".toList <:+: line := by
    simp [ToolsCheck.exempt, Text.occurs_iff_isInfix]
  have hfound : ToolsCheck.scanLine line = if "AskUserQuestion".toList <:+: line then []
      else ([.core, .shell, .task].filter (ToolReference.isFound line)).map
        ToolReference.issue := by
    rw [ToolsCheck.scanLine, ToolReference.map_issue_filter]
    simp only [hexempt, List.flatMap_cons, List.flatMap_nil, List.append_nil, List.append_assoc]
    rfl
  rw [hfound, ToolReference.filter_standsIn]
  refine ⟨rfl, ?_⟩
  have hall : ([.core, .shell, .task].map ToolReference.issue).Nodup := by decide
  split
  · exact List.nodup_nil
  · exact hall.sublist (List.filter_sublist.map _)

/-- A long s and a Kelvin sign, a blank that is not ASCII, and a backtick on one side only. -/
example : ToolsCheck.scanLine
    "CALL\u2003\x60Ta\u017F\u212A tool to launch u\u017Fe the  gREP tool".toList =
      [ToolsCheck.coreIssue, ToolsCheck.taskIssue] := by decide +kernel

end PluginLint
