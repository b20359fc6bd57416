import Mathlib.Data.List.DropRight
import Mathlib.Data.List.TakeWhile
import PluginLint.Proofs.Text.Search
import PluginLint.Text.Lines

/-!
# Laws of lines

A text is either free of line feeds or a line, a line feed and a text again. Two equations say what
`lines` makes of the two forms (`lines_of_open`, `lines_line`) and `lineInduction` reduces a fact
about all texts to them, so that nothing below opens the recursion of `lines` once more.

`openPart` is what a text leaves unfinished for a text after it: the lines that `t` adds behind `s`
are those of `openPart s ++ t` (`getElem?_lines_append`).
-/
namespace PluginLint.Text

/-- A line without the carriage return that belongs to its end. -/
def withoutReturn (line : Text) : Text :=
  if line.getLast? = some '\r' then line.dropLast else line

/-- What comes after the last line feed of a text. -/
def openPart (s : Text) : Text := s.rtakeWhile (· ≠ '\n')

/-- The line with a number, counted from one. -/
def lineAt? (s : Text) : Nat → Option Text
  | 0 => none
  | n + 1 => (lines s)[n]?

/-- A line that is there has a number from one to the number of lines. -/
theorem range_of_lineAt? {s line : Text} {n : Nat} (h : lineAt? s n = some line) :
    1 ≤ n ∧ n ≤ (lines s).length := by
  cases n with
  | zero => cases h
  | succ j => exact ⟨Nat.succ_pos j, (List.getElem?_eq_some_iff.mp h).1⟩

theorem mem_zipIdx_lines_iff {s line : Text} {n : Nat} :
    (line, n) ∈ (lines s).zipIdx 1 ↔ lineAt? s n = some line := by
  rw [List.mem_zipIdx_iff_le_and_getElem?_sub]
  cases n with
  | zero => simp [lineAt?]
  | succ j => simp [lineAt?]

theorem withoutReturn_append (p q : Text) (hq : q ≠ []) :
    withoutReturn (p ++ q) = p ++ withoutReturn q := by
  unfold withoutReturn
  rw [List.getLast?_append_of_ne_nil p hq, List.dropLast_append_of_ne_nil hq]
  split <;> rfl

theorem withoutReturn_prefix_self (line : Text) : withoutReturn line <+: line := by
  unfold withoutReturn
  split
  · exact List.dropLast_prefix line
  · exact List.prefix_rfl

/-- Outside the two forms of a line's end a character goes in front of the first line. -/
private theorem lines_cons {c : Char} {rest : Text} (hc : c ≠ '\n')
    (hr : c = '\r' → rest.head? ≠ some '\n') :
    lines (c :: rest) = match lines rest with
      | [] => [[c]]
      | line :: more => (c :: line) :: more := by
  have hcrlf : ∀ tail, c = '\r' → rest = '\n' :: tail → False := by
    rintro tail rfl rfl
    exact hr rfl rfl
  exact lines.eq_4 c rest hc hcrlf

theorem lines_of_open {s : Text} (hs : '\n' ∉ s) (hne : s ≠ []) : lines s = [s] := by
  induction s with
  | nil => exact absurd rfl hne
  | cons c rest ih =>
    have hc : c ≠ '\n' := fun h => hs (by simp [h])
    have hrest : '\n' ∉ rest := fun h => hs (by simp [h])
    have hhead : c = '\r' → rest.head? ≠ some '\n' :=
      fun _ h => hrest (List.mem_of_mem_head? h)
    rw [lines_cons hc hhead]
    by_cases hnil : rest = []
    · subst hnil
      rfl
    · rw [ih hrest hnil]

theorem lines_line {q : Text} (hq : '\n' ∉ q) (rest : Text) :
    lines (q ++ '\n' :: rest) = withoutReturn q :: lines rest := by
  induction q with
  | nil => rfl
  | cons c q ih =>
    have hc : c ≠ '\n' := fun h => hq (by simp [h])
    have hmore : '\n' ∉ q := fun h => hq (by simp [h])
    by_cases hnil : q = []
    · subst hnil
      by_cases hr : c = '\r'
      · subst hr
        rfl
      · rw [List.cons_append, lines_cons hc (fun h => absurd h hr)]
        simp [lines, withoutReturn, hr]
    · have hhead : c = '\r' → (q ++ '\n' :: rest).head? ≠ some '\n' := by
        intro _ h
        rw [List.head?_append_of_ne_nil q hnil] at h
        exact hmore (List.mem_of_mem_head? h)
      rw [List.cons_append, lines_cons hc hhead, ih hmore]
      exact congrArg (· :: lines rest) (withoutReturn_append [c] q hnil).symm

/-- A fact about all texts, line by line. -/
@[elab_as_elim]
theorem lineInduction {motive : Text → Prop}
    (unended : ∀ q, '\n' ∉ q → motive q)
    (line : ∀ q rest, '\n' ∉ q → motive rest → motive (q ++ '\n' :: rest)) (s : Text) :
    motive s :=
  splitInduction '\n' unended line s

/-- Lines that are joined by line feeds are read again, given that none of them is empty or ends in
a return. -/
theorem lines_intercalate {L : List Text} (hopen : ∀ l ∈ L, '\n' ∉ l) (hne : ∀ l ∈ L, l ≠ [])
    (hreturn : ∀ l ∈ L, l.getLast? ≠ some '\r') : lines (List.intercalate ['\n'] L) = L := by
  induction L with
  | nil => rfl
  | cons l rest ih =>
    rw [List.forall_mem_cons] at hopen hne hreturn
    by_cases hrest : rest = []
    · rw [hrest, List.intercalate_singleton, lines_of_open hopen.1 hne.1]
    · have hkeep : withoutReturn l = l := by simp [withoutReturn, hreturn.1]
      rw [List.intercalate_cons_of_ne_nil hrest, List.append_assoc, List.singleton_append,
        lines_line hopen.1, ih hopen.2 hne.2 hreturn.2, hkeep]

/-! ## Positions -/

theorem newline_not_mem_openPart (s : Text) : '\n' ∉ openPart s := fun h => by
  have := List.mem_rtakeWhile_imp h
  simp at this

theorem openPart_of_open {s : Text} (hs : '\n' ∉ s) : openPart s = s := by
  apply List.rtakeWhile_eq_self_iff.mpr
  intro c hc
  have hne : c ≠ '\n' := fun h => hs (h ▸ hc)
  simpa using hne

/-- A line feed and what comes before it leave nothing open. -/
theorem openPart_line (s rest : Text) : openPart (s ++ '\n' :: rest) = openPart rest := by
  unfold openPart List.rtakeWhile
  rw [List.reverse_append, List.reverse_cons, List.append_assoc, List.takeWhile_append]
  split
  · next hall =>
    rw [(List.takeWhile_prefix _).eq_of_length hall]
    simp
  · rfl

theorem openPart_append_of_mem (s : Text) {t : Text} (ht : '\n' ∈ t) :
    openPart (s ++ t) = openPart t := by
  obtain ⟨q, rest, rfl⟩ := List.append_of_mem ht
  rw [← List.append_assoc, openPart_line, openPart_line]

theorem newlines_of_open {s : Text} (hs : '\n' ∉ s) : newlines s = 0 :=
  List.count_eq_zero.mpr hs

theorem newlines_append (s t : Text) : newlines (s ++ t) = newlines s + newlines t :=
  List.count_append

theorem newlines_line {q : Text} (hq : '\n' ∉ q) (rest : Text) :
    newlines (q ++ '\n' :: rest) = newlines rest + 1 := by
  rw [newlines_append, newlines_of_open hq, Nat.zero_add]
  exact List.count_cons_self

/-- The lines behind `s` are those of the text with all of `s` taken away but its open part. -/
theorem getElem?_lines_append (s t : Text) (i : Nat) :
    (lines (s ++ t))[newlines s + i]? = (lines (openPart s ++ t))[i]? := by
  induction s using lineInduction with
  | unended q hq => rw [openPart_of_open hq, newlines_of_open hq, Nat.zero_add]
  | line q rest hq ih =>
    have hcount : newlines (q ++ '\n' :: rest) + i = newlines rest + i + 1 := by
      rw [newlines_line hq]
      omega
    rw [openPart_line, hcount, List.append_assoc, List.cons_append, lines_line hq,
      List.getElem?_cons_succ, ih]

/-- What follows a line feed is what remains when the lines before it are dropped. -/
theorem drop_lines_line (p rest : Text) :
    (lines (p ++ '\n' :: rest)).drop (newlines p + 1) = lines rest := by
  have hcount : newlines (p ++ ['\n']) = newlines p + 1 := by
    rw [newlines_append]
    rfl
  have hopen : openPart (p ++ ['\n']) = [] := openPart_line p []
  apply List.ext_getElem?
  intro i
  rw [List.getElem?_drop, ← hcount, List.append_cons, getElem?_lines_append, hopen, List.nil_append]

/-- The lines before the one that is open stay what they are when more comes behind. -/
theorem getElem?_lines_of_lt {s : Text} {i : Nat} (hi : i < newlines s) (t : Text) :
    (lines (s ++ t))[i]? = (lines s)[i]? := by
  induction s using lineInduction generalizing i with
  | unended q hq =>
    rw [newlines_of_open hq] at hi
    exact absurd hi (Nat.not_lt_zero i)
  | line q rest hq ih =>
    rw [List.append_assoc, List.cons_append, lines_line hq, lines_line hq]
    cases i with
    | zero => rfl
    | succ i =>
      rw [newlines_line hq] at hi
      exact ih (Nat.lt_of_succ_lt_succ hi)

theorem length_lines_le (s : Text) : (lines s).length ≤ newlines s + 1 := by
  induction s using lineInduction with
  | unended q hq =>
    by_cases hne : q = []
    · simp [hne, lines]
    · simp [lines_of_open hq hne]
  | line q rest hq ih =>
    rw [lines_line hq, List.length_cons, newlines_line hq]
    omega

/-! ## Marks in lines -/

theorem occurs_withoutReturn {mark : Text} (hreturn : '\r' ∉ mark) (line : Text) :
    occurs mark (withoutReturn line) = occurs mark line := by
  unfold withoutReturn
  split
  · next h =>
    obtain ⟨front, rfl⟩ := List.getLast?_eq_some_iff.mp h
    rw [List.dropLast_concat, Bool.eq_iff_iff, occurs_iff_isInfix, occurs_iff_isInfix,
      infix_append_cons_iff hreturn, List.infix_nil]
    constructor
    · exact .inl
    · rintro (hfront | rfl)
      · exact hfront
      · exact List.nil_infix
  · rfl

/-- The first line that holds a mark is the one on which the first place of the mark stands. -/
theorem findIdx?_occurs_lines {mark : Text} (hne : mark ≠ []) (hfeed : '\n' ∉ mark)
    (hreturn : '\r' ∉ mark) (s : Text) :
    (lines s).findIdx? (occurs mark) = (cut? mark s).map fun found => newlines found.1 := by
  have hopen {q before after : Text} (hq : '\n' ∉ q) (hcut : cut? mark q = some (before, after)) :
      newlines before = 0 := by
    apply newlines_of_open
    intro hmem
    apply hq
    rw [← append_of_cut? hcut]
    simp [hmem]
  induction s using lineInduction with
  | unended q hq =>
    by_cases hnil : q = []
    · simp [hnil, lines, cut?, hne]
    · cases hcut : cut? mark q with
      | none => simp [lines_of_open hq hnil, occurs, hcut]
      | some found => simp [lines_of_open hq hnil, occurs, hcut, hopen hq hcut]
  | line q rest hq ih =>
    rw [lines_line hq, List.findIdx?_cons, occurs_withoutReturn hreturn, ih]
    cases hcut : cut? mark q with
    | none =>
      have hno : occurs mark q = false := cut?_eq_none_iff.mp hcut
      rw [cut?_append_cons hfeed hne hno, hno, Option.map_map, Option.map_map]
      simp [Function.comp_def, newlines_line hq]
    | some found =>
      rw [cut?_append hcut]
      simp [occurs, hcut, hopen hq hcut]

theorem lines_append_line (p rest : Text) :
    lines (p ++ '\n' :: rest) = lines (p ++ ['\n']) ++ lines rest := by
  induction p using lineInduction with
  | unended q hq =>
    rw [lines_line hq, lines_line hq]
    rfl
  | line q p hq ih =>
    rw [List.append_assoc, List.cons_append, lines_line hq, ih, List.append_assoc,
      List.cons_append, lines_line hq, List.cons_append]

theorem length_lines_line (p : Text) : (lines (p ++ ['\n'])).length = newlines p + 1 := by
  induction p using lineInduction with
  | unended q hq =>
    rw [lines_line hq, newlines_of_open hq]
    rfl
  | line q p hq ih =>
    rw [List.append_assoc, List.cons_append, lines_line hq, List.length_cons, ih, newlines_line hq]

/-- Up to the end of a line a mark is found among the lines where it is found in the text. -/
theorem findIdx?_occurs_take_lines {mark : Text} (hne : mark ≠ []) (hfeed : '\n' ∉ mark)
    (hreturn : '\r' ∉ mark) (p : Text) {tail : Text}
    (htail : tail = [] ∨ tail.head? = some '\n') :
    ((lines (p ++ tail)).take (newlines p + 1)).findIdx? (occurs mark) =
      (cut? mark p).map fun found => newlines found.1 := by
  cases tail with
  | nil =>
    rw [List.append_nil, List.take_of_length_le (length_lines_le p),
      findIdx?_occurs_lines hne hfeed hreturn]
  | cons c rest =>
    obtain rfl : c = '\n' := by simpa using htail
    rw [lines_append_line, List.take_left' (length_lines_line p),
      findIdx?_occurs_lines hne hfeed hreturn]
    cases hcut : cut? mark p with
    | some found => rw [cut?_append hcut, Option.map_some, Option.map_some]
    | none =>
      have hnil : cut? mark [] = none := by simp [cut?, hne]
      rw [cut?_append_cons hfeed hne (cut?_eq_none_iff.mp hcut), hnil]
      rfl

/-! ## Lines of a part -/

/-- The first line of a text grows with what comes behind it, unless that parts a return from
its text. -/
theorem exists_first_line {q : Text} (hq : '\n' ∉ q) (hne : q ≠ [])
    (hend : q.getLast? ≠ some '\r') (t : Text) :
    ∃ y more, lines (q ++ t) = (q ++ y) :: more ∧ y <+: t := by
  by_cases ht : '\n' ∈ t
  · obtain ⟨u, rest, rfl, hu⟩ := List.eq_append_cons_of_mem ht
    have hqu : '\n' ∉ q ++ u := by simp [hq, hu]
    rw [← List.append_assoc, lines_line hqu]
    by_cases hnil : u = []
    · subst hnil
      exact ⟨[], lines rest, by simp [withoutReturn, hend], List.nil_prefix⟩
    · refine ⟨withoutReturn u, lines rest, by rw [withoutReturn_append q u hnil], ?_⟩
      exact (withoutReturn_prefix_self u).trans (List.prefix_append u _)
  · exact ⟨t, [], lines_of_open (by simp [hq, ht]) (by simp [hne]), List.prefix_rfl⟩

/-- What stands in a text without a line feed stands on a line, which is numbered by the line feeds
before it. -/
theorem exists_lineAt?_infix {q : Text} (hq : '\n' ∉ q) (hne : q ≠ [])
    (hend : q.getLast? ≠ some '\r') (before behind : Text) :
    ∃ line, lineAt? (before ++ (q ++ behind)) (newlines before + 1) = some line ∧ q <:+: line := by
  have hopen : '\n' ∉ openPart before ++ q := by simp [newline_not_mem_openPart, hq]
  have hlast : (openPart before ++ q).getLast? ≠ some '\r' := by
    rwa [List.getLast?_append_of_ne_nil _ hne]
  obtain ⟨y, more, hlines, -⟩ := exists_first_line hopen (by simp [hne]) hlast behind
  refine ⟨openPart before ++ q ++ y, ?_, openPart before, y, rfl⟩
  have hline := getElem?_lines_append before (q ++ behind) 0
  rw [← List.append_assoc (openPart before), hlines] at hline
  exact hline

/-- The lines of `s` inside a text `p ++ s ++ t` that opens with an unfinished line `p`: only the
first has something before it, which is `p`, and only the last has something behind it, with which
`t` starts. -/
theorem getElem?_lines_within {p s : Text} (t : Text) (hp : '\n' ∉ p)
    (hstart : p = [] ∨ s.head? ≠ some '\n') (hend : s.getLast? ≠ some '\r') {i : Nat} {b : Text}
    (h : (lines s)[i]? = some b) :
    ∃ x y, (lines (p ++ s ++ t))[i]? = some (x ++ b ++ y) ∧ y <+: t ∧ (i = 0 → x = p) ∧
      (0 < i → x = []) ∧ (i + 1 < (lines s).length → y = []) := by
  induction s using lineInduction generalizing p i with
  | unended q hq =>
    have hne : q ≠ [] := by
      rintro rfl
      simp [lines] at h
    rw [lines_of_open hq hne] at h ⊢
    obtain ⟨hi, hb⟩ := List.getElem?_eq_some_iff.mp h
    obtain rfl : i = 0 := by simpa using hi
    obtain rfl : q = b := hb
    have hlast : (p ++ q).getLast? ≠ some '\r' := by
      rwa [List.getLast?_append_of_ne_nil p hne]
    obtain ⟨y, more, hl, hy⟩ := exists_first_line (by simp [hp, hq]) (by simp [hne]) hlast t
    refine ⟨p, y, ?_, hy, fun _ => rfl, fun h => absurd h (lt_irrefl 0), fun h => ?_⟩
    · rw [hl]
      rfl
    · simp at h
  | line q rest hq ih =>
    rw [lines_line hq] at h ⊢
    have hpq : '\n' ∉ p ++ q := by simp [hp, hq]
    have hwhole : lines (p ++ (q ++ '\n' :: rest) ++ t) =
        withoutReturn (p ++ q) :: lines (rest ++ t) := by
      rw [← lines_line hpq]
      simp
    rw [hwhole]
    cases i with
    | zero =>
      obtain rfl : withoutReturn q = b := by simpa using h
      have hkeep : withoutReturn (p ++ q) = p ++ withoutReturn q := by
        rcases hstart with rfl | hhead
        · rfl
        · apply withoutReturn_append
          rintro rfl
          exact hhead rfl
      refine ⟨p, [], ?_, List.nil_prefix, fun _ => rfl, fun h => absurd h (lt_irrefl 0),
        fun _ => rfl⟩
      simp [hkeep]
    | succ i =>
      have hrest : rest.getLast? ≠ some '\r' := by
        intro hr
        apply hend
        have hne : rest ≠ [] := by
          rintro rfl
          simp at hr
        rw [List.getLast?_append_of_ne_nil q (by simp), List.getLast?_cons_of_ne_nil hne, hr]
      obtain ⟨x, y, hl, hprefix, h0, hx, hy⟩ :=
        ih (p := []) (i := i) (by simp) (.inl rfl) hrest (by simpa using h)
      refine ⟨x, y, by simpa using hl, hprefix, fun h => absurd h (Nat.succ_ne_zero i), fun _ => ?_,
        fun h => hy (by simpa using h)⟩
      rcases Nat.eq_zero_or_pos i with hi | hi
      · exact h0 hi
      · exact hx hi

end PluginLint.Text
