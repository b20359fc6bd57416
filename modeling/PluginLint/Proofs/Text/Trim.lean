import Mathlib.Data.List.DropRight
import PluginLint.Text.Blank

/-!
# Laws of trimming

A text is its leading blanks, what trimming leaves of it and its trailing blanks
(`blanks_append_trim`). What is left neither starts nor ends with a blank.
-/
namespace PluginLint.Text

/-- The blanks that trimming drops from the end. -/
def trailingBlanks (s : Text) : Text := (trimStart s).rtakeWhile isBlank

theorem isBlankLine_leadingBlanks (s : Text) : isBlankLine (leadingBlanks s) = true :=
  List.all_takeWhile

theorem isBlankLine_trailingBlanks (s : Text) : isBlankLine (trailingBlanks s) = true :=
  List.all_eq_true.mpr fun _ hc => List.mem_rtakeWhile_imp hc

theorem isBlankLine_of_subset {s t : Text} (h : s ⊆ t) (ht : isBlankLine t = true) :
    isBlankLine s = true :=
  List.all_eq_true.mpr fun c hc => List.all_eq_true.mp ht c (h hc)

theorem blanks_append_trim (s : Text) : leadingBlanks s ++ trim s ++ trailingBlanks s = s := by
  rw [List.append_assoc]
  calc leadingBlanks s ++ (trim s ++ trailingBlanks s)
      = leadingBlanks s ++ trimStart s :=
        congrArg (leadingBlanks s ++ ·) List.rdropWhile_append_rtakeWhile
    _ = s := leadingBlanks_append_trimStart s

theorem trim_isInfix (s : Text) : trim s <:+: s := ⟨_, _, blanks_append_trim s⟩

theorem isBlank_of_head?_trimStart {s : Text} {c : Char} (h : (trimStart s).head? = some c) :
    isBlank c = false := by
  have := List.head?_dropWhile_not isBlank s
  unfold trimStart at h
  rw [h] at this
  simpa using this

theorem isBlank_of_head?_trim {s : Text} {c : Char} (h : (trim s).head? = some c) :
    isBlank c = false := by
  apply isBlank_of_head?_trimStart (s := s)
  have hprefix : trim s <+: trimStart s := List.rdropWhile_prefix isBlank _
  obtain ⟨rest, hs⟩ := hprefix
  have hne : trim s ≠ [] := by
    intro hnil
    simp [hnil] at h
  rw [← hs, List.head?_append_of_ne_nil _ hne, h]

theorem isBlank_of_getLast?_trim {s : Text} {c : Char} (h : (trim s).getLast? = some c) :
    isBlank c = false := by
  have hne : trim s ≠ [] := by
    intro hnil
    simp [hnil] at h
  have hlast := List.rdropWhile_last_not isBlank (trimStart s) hne
  rw [List.getLast?_eq_some_getLast hne] at h
  obtain rfl := Option.some.inj h
  exact Bool.eq_false_iff.mpr hlast

/-- Trimming leaves a text alone that neither starts nor ends with a blank. -/
theorem trim_eq_self_iff {s : Text} :
    trim s = s ↔ (∀ c, s.head? = some c → isBlank c = false) ∧
      ∀ c, s.getLast? = some c → isBlank c = false := by
  constructor
  · intro h
    exact ⟨fun c hc => isBlank_of_head?_trim (h.symm ▸ hc),
      fun c hc => isBlank_of_getLast?_trim (h.symm ▸ hc)⟩
  · rintro ⟨hhead, hlast⟩
    have hstart : trimStart s = s := by
      cases s with
      | nil => rfl
      | cons c rest => simp [trimStart, hhead c rfl]
    rw [trim, hstart]
    apply List.rdropWhile_eq_self_iff.mpr
    intro hne
    rw [hlast _ (List.getLast?_eq_some_getLast hne)]
    exact Bool.false_ne_true

/-- Whatever stands between two trimmed texts, the whole is trimmed. -/
theorem trim_between {a b : Text} (ha : trim a = a) (hb : trim b = b) (hna : a ≠ []) (hnb : b ≠ [])
    (m : Text) : trim (a ++ m ++ b) = a ++ m ++ b := by
  rw [trim_eq_self_iff] at ha hb ⊢
  refine ⟨fun c hc => ha.1 c ?_, fun c hc => hb.2 c ?_⟩
  · rwa [List.append_assoc, List.head?_append_of_ne_nil a hna] at hc
  · rwa [List.getLast?_append_of_ne_nil _ hnb] at hc

/-! ## Blanks around a text -/

theorem trimStart_eq_nil_iff {s : Text} : trimStart s = [] ↔ isBlankLine s = true := by
  rw [trimStart, List.dropWhile_eq_nil_iff, isBlankLine, List.all_eq_true]

theorem trim_eq_nil_iff {s : Text} : trim s = [] ↔ isBlankLine s = true := by
  constructor
  · intro h
    have hs := blanks_append_trim s
    rw [h, List.append_nil] at hs
    rw [← hs, isBlankLine, List.all_append]
    exact Bool.and_eq_true_iff.mpr ⟨isBlankLine_leadingBlanks s, isBlankLine_trailingBlanks s⟩
  · intro h
    simp [trim, trimStart_eq_nil_iff.mpr h, trimEnd]

theorem leadingBlanks_blank_append {q : Text} (hq : isBlankLine q = true) (s : Text) :
    leadingBlanks (q ++ s) = q ++ leadingBlanks s :=
  List.takeWhile_append_of_pos (List.all_eq_true.mp hq)

/-- The leading blanks end with the first part of a text that is not blank. -/
theorem leadingBlanks_append_of_not_blank {q : Text} (hq : isBlankLine q = false) (s : Text) :
    leadingBlanks (q ++ s) = leadingBlanks q := by
  unfold leadingBlanks
  rw [List.takeWhile_append, if_neg]
  intro hall
  have hself : leadingBlanks q = q := (List.takeWhile_prefix isBlank).eq_of_length hall
  have hblank := isBlankLine_leadingBlanks q
  rw [hself, hq] at hblank
  cases hblank

theorem trim_blank_append {q : Text} (hq : isBlankLine q = true) (s : Text) :
    trim (q ++ s) = trim s := by
  have hstart : trimStart (q ++ s) = trimStart s :=
    List.dropWhile_append_of_pos (List.all_eq_true.mp hq)
  simp [trim, hstart]

theorem trimEnd_append_blank {q : Text} (hq : isBlankLine q = true) (s : Text) :
    trimEnd (s ++ q) = trimEnd s := by
  have hrev : ∀ c ∈ q.reverse, isBlank c = true :=
    fun c hc => List.all_eq_true.mp hq c (List.mem_reverse.mp hc)
  simp [trimEnd, List.dropWhile_append_of_pos hrev]

theorem trim_append_blank {q : Text} (hq : isBlankLine q = true) (s : Text) :
    trim (s ++ q) = trim s := by
  by_cases hs : isBlankLine s = true
  · rw [trim_blank_append hs, trim_eq_nil_iff.mpr hq, trim_eq_nil_iff.mpr hs]
  · have hne : trimStart s ≠ [] := fun h => hs (trimStart_eq_nil_iff.mp h)
    have hstart : trimStart (s ++ q) = trimStart s ++ q := by
      simp [trimStart, List.dropWhile_append, trimStart.eq_1 s ▸ hne]
    rw [trim, hstart, trimEnd_append_blank hq, trim]

theorem trimStart_trim (s : Text) : trimStart (trim s) = trim s := by
  cases h : trim s with
  | nil => rfl
  | cons c rest =>
    have hc : isBlank c = false := isBlank_of_head?_trim (s := s) (by rw [h]; rfl)
    simp [trimStart, hc]

theorem isBlankLine_trim (s : Text) : isBlankLine (trim s) = isBlankLine s := by
  rw [Bool.eq_iff_iff, ← trimStart_eq_nil_iff, trimStart_trim, trim_eq_nil_iff]

theorem leadingBlanks_trim (s : Text) : leadingBlanks (trim s) = [] := by
  have h := leadingBlanks_append_trimStart (trim s)
  rw [trimStart_trim] at h
  exact List.append_left_eq_self.mp h

/-- A mark without blanks does not reach into the blanks behind a text. -/
theorem prefix_append_blank_iff {mark t : Text} (hm : ∀ c ∈ mark, isBlank c = false)
    (ht : isBlankLine t = true) (s : Text) : mark <+: s ++ t ↔ mark <+: s := by
  induction mark generalizing s with
  | nil => simp
  | cons c more ih =>
    have hc : isBlank c = false := hm c (by simp)
    cases s with
    | nil =>
      have hno : ¬ c :: more <+: t := fun h => by
        have hblank := List.all_eq_true.mp ht c (h.subset (by simp))
        simp [hc] at hblank
      simpa using hno
    | cons d rest =>
      have hmore := ih (fun e he => hm e (by simp [he])) rest
      simp only [List.cons_append, List.cons_prefix_cons, hmore]

end PluginLint.Text
