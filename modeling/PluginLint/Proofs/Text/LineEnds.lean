import PluginLint.Proofs.Text.TrimmedLines

/-!
# Two ways to end a line

`withReturns` puts a carriage return before every line feed. A return before a line feed belongs to
the end of the line, so a text without returns has the same lines either way (`lines_withReturns`).
What trims the text, counts its line feeds or looks for a mark in one line goes along with the
change.
-/
namespace PluginLint.Text

/-- The text with a carriage return before every line feed. -/
def withReturns (s : Text) : Text := s.flatMap fun c => if c = '\n' then ['\r', '\n'] else [c]

theorem withReturns_append (s t : Text) :
    withReturns (s ++ t) = withReturns s ++ withReturns t := List.flatMap_append

theorem withReturns_of_open {s : Text} (hs : '\n' ∉ s) : withReturns s = s := by
  induction s with
  | nil => rfl
  | cons c rest ih =>
    have hc : c ≠ '\n' := fun h => hs (by simp [h])
    have hrest : '\n' ∉ rest := fun h => hs (by simp [h])
    rw [withReturns, List.flatMap_cons, if_neg hc]
    exact congrArg (c :: ·) (ih hrest)

theorem withReturns_line {q : Text} (hq : '\n' ∉ q) (rest : Text) :
    withReturns (q ++ '\n' :: rest) = q ++ '\r' :: '\n' :: withReturns rest := by
  rw [withReturns_append, withReturns_of_open hq]
  rfl

theorem newlines_withReturns (s : Text) : newlines (withReturns s) = newlines s := by
  induction s using lineInduction with
  | unended q hq => rw [withReturns_of_open hq]
  | line q rest hq ih =>
    have hreturn : '\n' ∉ q ++ ['\r'] := by simp [hq]
    rw [withReturns_line hq, List.append_cons, newlines_line hreturn, newlines_line hq, ih]

theorem lines_withReturns {s : Text} (hs : '\r' ∉ s) : lines (withReturns s) = lines s := by
  induction s using lineInduction with
  | unended q hq => rw [withReturns_of_open hq]
  | line q rest hq ih =>
    have hfeed : '\n' ∉ q ++ ['\r'] := by simp [hq]
    have hlast : q.getLast? ≠ some '\r' := fun h => hs (by simp [List.mem_of_getLast? h])
    have hrest : '\r' ∉ rest := fun h => hs (by simp [h])
    rw [withReturns_line hq, List.append_cons, lines_line hfeed, lines_line hq, ih hrest]
    simp [withoutReturn, hlast]

/-! ## Blanks -/

theorem isBlankLine_withReturns {s : Text} (hs : isBlankLine s = true) :
    isBlankLine (withReturns s) = true := by
  apply List.all_eq_true.mpr
  intro c hc
  obtain ⟨d, hd, hc⟩ := List.mem_flatMap.mp hc
  split at hc
  · rcases List.mem_pair.mp hc with rfl | rfl <;> decide
  · rw [List.mem_singleton.mp hc]
    exact List.all_eq_true.mp hs d hd

theorem head?_withReturns {s : Text} (hs : s.head? ≠ some '\n') :
    (withReturns s).head? = s.head? := by
  cases s with
  | nil => rfl
  | cons c rest =>
    have hc : c ≠ '\n' := fun h => hs (by simp [h])
    simp [withReturns, hc]

theorem getLast?_withReturns (s : Text) : (withReturns s).getLast? = s.getLast? := by
  induction s using lineInduction with
  | unended q hq => rw [withReturns_of_open hq]
  | line q rest hq ih =>
    rw [withReturns_line hq, List.getLast?_append_of_ne_nil q (by simp),
      List.getLast?_append_of_ne_nil q (by simp)]
    simp [List.getLast?_cons, ih]

/-- A trimmed text stays trimmed. -/
theorem trim_withReturns_trim (s : Text) : trim (withReturns (trim s)) = withReturns (trim s) := by
  have hhead : (trim s).head? ≠ some '\n' := fun h => by
    simpa [isBlank] using isBlank_of_head?_trim h
  rw [trim_eq_self_iff, head?_withReturns hhead, getLast?_withReturns]
  exact ⟨fun _ => isBlank_of_head?_trim, fun _ => isBlank_of_getLast?_trim⟩

theorem trim_withReturns (s : Text) : trim (withReturns s) = withReturns (trim s) := by
  calc trim (withReturns s)
      = trim (withReturns (leadingBlanks s ++ trim s ++ trailingBlanks s)) := by
        rw [blanks_append_trim]
    _ = trim (withReturns (trim s)) := by
        rw [withReturns_append, withReturns_append,
          trim_append_blank (isBlankLine_withReturns (isBlankLine_trailingBlanks s)),
          trim_blank_append (isBlankLine_withReturns (isBlankLine_leadingBlanks s))]
    _ = withReturns (trim s) := trim_withReturns_trim s

theorem leadingBlanks_withReturns (s : Text) :
    leadingBlanks (withReturns s) = withReturns (leadingBlanks s) := by
  have hnone : leadingBlanks (withReturns (trimStart s)) = [] := by
    have hhead : (trimStart s).head? ≠ some '\n' := fun h => by
      simpa [isBlank] using isBlank_of_head?_trimStart h
    cases hstart : withReturns (trimStart s) with
    | nil => rfl
    | cons c rest =>
      have hc : isBlank c = false := by
        apply isBlank_of_head?_trimStart (s := s)
        rw [← head?_withReturns hhead, hstart]
        rfl
      simp [leadingBlanks, hc]
  calc leadingBlanks (withReturns s)
      = leadingBlanks (withReturns (leadingBlanks s) ++ withReturns (trimStart s)) := by
        rw [← withReturns_append, leadingBlanks_append_trimStart]
    _ = withReturns (leadingBlanks s) := by
        rw [leadingBlanks_blank_append (isBlankLine_withReturns (isBlankLine_leadingBlanks s)),
          hnone, List.append_nil]

/-! ## Marks -/

variable {mark : Text} (hfeed : '\n' ∉ mark) (hreturn : '\r' ∉ mark)
include hfeed hreturn

theorem isPrefix_withReturns_iff (s : Text) : mark <+: withReturns s ↔ mark <+: s := by
  induction s using lineInduction with
  | unended q hq => rw [withReturns_of_open hq]
  | line q rest hq _ =>
    rw [withReturns_line hq, prefix_append_cons_iff hreturn, prefix_append_cons_iff hfeed]

/-- A mark within a line is found at the same place. -/
theorem cut?_withReturns (hne : mark ≠ []) (s : Text) :
    cut? mark (withReturns s) =
      (cut? mark s).map fun found => (withReturns found.1, withReturns found.2) := by
  have hopen {q : Text} {found : Text × Text} (hq : '\n' ∉ q) (hcut : cut? mark q = some found) :
      '\n' ∉ found.1 ∧ '\n' ∉ found.2 := by
    rw [← append_of_cut? hcut] at hq
    simp only [List.mem_append, not_or] at hq
    exact ⟨hq.1.1, hq.2⟩
  induction s using lineInduction with
  | unended q hq =>
    rw [withReturns_of_open hq]
    cases hcut : cut? mark q with
    | none => rfl
    | some found =>
      simp [withReturns_of_open (hopen hq hcut).1, withReturns_of_open (hopen hq hcut).2]
  | line q rest hq ih =>
    rw [withReturns_line hq]
    cases hcut : cut? mark q with
    | some found =>
      rw [cut?_append hcut, cut?_append hcut]
      simp [withReturns_of_open (hopen hq hcut).1, withReturns_line (hopen hq hcut).2]
    | none =>
      have hno : occurs mark q = false := cut?_eq_none_iff.mp hcut
      have hnil : occurs mark [] = false := by simp [occurs, cut?, hne]
      have hrest : cut? mark ('\n' :: withReturns rest) =
          (cut? mark (withReturns rest)).map fun found => ('\n' :: found.1, found.2) :=
        cut?_append_cons hfeed hne hnil _
      rw [cut?_append_cons hreturn hne hno, hrest, cut?_append_cons hfeed hne hno, ih]
      simp [Function.comp_def, withReturns_line hq]

end PluginLint.Text
