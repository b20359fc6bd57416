import Mathlib.Data.List.Forall2
import Mathlib.Logic.Relation
import PluginLint.Proofs.Report.Kinds
import PluginLint.Proofs.Text.LetterCase
import PluginLint.Proofs.Text.Trim

/-!
# How a selection is written

A selection is the word for all checks or names between commas. The names are read one by one, and
what comes of it depends only on which kinds they name and on whether one of them names none
(`ofNames_eq_ok_iff`): not on their order, on how often one occurs, on the word that names a kind
or on blank segments. So a selection can be respelled (`Respelling`) as long as it names its kinds.
The word for all checks is no name: it is read only where it stands alone.
-/
namespace PluginLint.CheckKind

/-! ## Names -/

/-- Whether a name is one of the words for a kind, in any case. -/
def IsNamedBy (kind : CheckKind) (name : Text) : Prop :=
  ∃ word ∈ kind.words, Text.lowercase name = word.toList

/-- Whether a name is a word for some kind. -/
def Recognised (name : Text) : Prop := ∃ kind : CheckKind, kind.IsNamedBy name

variable {kind : CheckKind} {name s s' : Text} {kinds : List CheckKind}

/-- No word is for two kinds. -/
theorem find?_word {word : String} (h : word ∈ kind.words) :
    (all.find? fun kind => kind.words.any fun w => w.toList == word.toList) = some kind := by
  revert word
  cases kind <;> decide

theorem ofText?_eq_some_iff : ofText? name = some kind ↔ kind.IsNamedBy name := by
  constructor
  · intro h
    have hany := List.find?_some (p := fun kind : CheckKind => kind.words.any fun word =>
      word.toList == Text.lowercase name) h
    obtain ⟨word, hword, hsame⟩ := List.any_eq_true.mp hany
    exact ⟨word, hword, (beq_iff_eq.mp hsame).symm⟩
  · rintro ⟨word, hword, hlower⟩
    rw [ofText?, hlower]
    exact find?_word hword

theorem ofText?_eq_none_iff : ofText? name = none ↔ ¬ Recognised name := by
  rw [Recognised, Option.eq_none_iff_forall_ne_some]
  simp only [ne_eq, ofText?_eq_some_iff, not_exists]

instance (name : Text) : Decidable (Recognised name) :=
  decidable_of_iff (ofText? name ≠ none) (by rw [ne_eq, ofText?_eq_none_iff, not_not])

/-! ## Selections by names -/

/-- What the segments of a selection are read as, blank ones left out. -/
def readings (segments : List Text) : List (Option CheckKind) :=
  ((segments.map Text.trim).filter (· ≠ [])).map ofText?

theorem mem_readings_iff {segments : List Text} {reading : Option CheckKind} :
    reading ∈ readings segments ↔ ∃ segment ∈ segments,
      Text.isBlankLine segment = false ∧ ofText? (Text.trim segment) = reading := by
  simp [readings, Text.trim_eq_nil_iff, and_assoc]

/-- What a selection by names stands for depends only on what its segments are read as. -/
theorem parseList_eq_ok_iff (hall : isAll s = false) : parseList s = .ok kinds ↔
    readings (s.splitOn ',') ≠ [] ∧ none ∉ readings (s.splitOn ',') ∧
      kinds = all.filter fun kind => some kind ∈ readings (s.splitOn ',') := by
  have hreadings : readings (s.splitOn ',') = (names s).map ofText? := rfl
  have hselected (kind : CheckKind) :
      kind ∈ (names s).filterMap ofText? ↔ some kind ∈ readings (s.splitOn ',') := by
    rw [hreadings, List.mem_filterMap, List.mem_map]
  rw [parseList_eq]
  simp only [hall, Bool.false_eq_true, if_false, hselected]
  by_cases hunknown : none ∈ readings (s.splitOn ',')
  · have hsome : ((names s).filter fun name => (ofText? name).isNone) ≠ [] := by
      simpa [hreadings] using hunknown
    rw [if_pos hsome]
    simp [hunknown]
  · have hnone : ¬ ((names s).filter fun name => (ofText? name).isNone) ≠ [] := by
      simpa [hreadings] using hunknown
    rw [if_neg hnone]
    by_cases hempty : readings (s.splitOn ',') = []
    · have hnothing : (names s).filterMap ofText? = [] := by
        have hnames : names s = [] := List.map_eq_nil_iff.mp (hreadings ▸ hempty)
        rw [hnames, List.filterMap_nil]
      rw [if_pos hnothing]
      simp [hempty]
    · have hsome : (names s).filterMap ofText? ≠ [] := by
        obtain ⟨reading, hreading⟩ := List.exists_mem_of_ne_nil _ hempty
        cases reading with
        | none => exact absurd hreading hunknown
        | some kind => exact List.ne_nil_of_mem ((hselected kind).mpr hreading)
      rw [if_neg hsome, Except.ok.injEq, eq_comm]
      exact ⟨fun h => ⟨hempty, hunknown, h⟩, fun h => h.2.2⟩

/-- A selection by names that cannot be read has names that are not known, or none at all. -/
theorem parseList_eq_error {e : SelectionError} (h : parseList s = .error e) :
    ((∃ name ∈ names s, ¬ Recognised name) ∧
      e = .unknownChecks ((names s).filter fun name => ¬ Recognised name)) ∨
    names s = [] ∧ e = .nothing := by
  have hunknown : ((names s).filter fun name => (ofText? name).isNone) =
      (names s).filter fun name => ¬ Recognised name :=
    List.filter_congr fun name _ => by
      rw [Bool.eq_iff_iff, Option.isNone_iff_eq_none, decide_eq_true_eq, ofText?_eq_none_iff]
  rw [parseList_eq] at h
  split at h
  · cases h
  · simp only [hunknown] at h
    split at h
    · next hsome =>
      obtain ⟨name, hname⟩ := List.exists_mem_of_ne_nil _ hsome
      obtain ⟨hmem, hnot⟩ := List.mem_filter.mp hname
      exact .inl ⟨⟨name, hmem, of_decide_eq_true hnot⟩, (Except.error.inj h).symm⟩
    · next hnone =>
      split at h
      · next hempty =>
        refine .inr ⟨?_, (Except.error.inj h).symm⟩
        by_contra hsome
        obtain ⟨name, hname⟩ := List.exists_mem_of_ne_nil _ hsome
        by_cases hknown : Recognised name
        · obtain ⟨kind, hkind⟩ := hknown
          have hmem : kind ∈ (names s).filterMap ofText? :=
            List.mem_filterMap.mpr ⟨name, hname, ofText?_eq_some_iff.mpr hkind⟩
          simp [hempty] at hmem
        · exact hnone (List.ne_nil_of_mem (List.mem_filter.mpr ⟨hname, decide_eq_true hknown⟩))
      · cases h

/-! ## Respelling -/

/-- One change to the segments of a selection that leaves alone which kinds they name: they are put
in another order, one of them is written once more, another word is taken for the same kind, with
any blanks around it, or a blank one is put in. -/
inductive Respelling : List Text → List Text → Prop
  | reorder {segments segments' : List Text} (h : segments.Perm segments') :
    Respelling segments segments'
  | again {segment : Text} {segments : List Text} (h : segment ∈ segments) :
    Respelling segments (segment :: segments)
  | rename {kind : CheckKind} {segment segment' : Text} {segments : List Text}
    (h : kind.IsNamedBy (Text.trim segment)) (h' : kind.IsNamedBy (Text.trim segment')) :
    Respelling (segment :: segments) (segment' :: segments)
  | blank {segment : Text} {segments : List Text} (h : Text.isBlankLine segment = true) :
    Respelling segments (segment :: segments)

/-- Whether a selection comes of another by any number of such changes, made or undone. -/
def Respelled (s s' : Text) : Prop :=
  Relation.EqvGen Respelling (s.splitOn ',') (s'.splitOn ',')

/-- A blank text is no name. -/
theorem isBlankLine_of_isNamedBy {segment : Text} (h : kind.IsNamedBy (Text.trim segment)) :
    Text.isBlankLine segment = false := by
  obtain ⟨word, hword, hlower⟩ := h
  have hletters : ∀ word ∈ kind.words, [] ≠ word.toList := by cases kind <;> decide
  rw [← Bool.not_eq_true, ← Text.trim_eq_nil_iff]
  intro hnil
  rw [hnil] at hlower
  exact hletters word hword hlower

/-- A change leaves the readings what they were, apart from their order and number. -/
theorem mem_readings_of_respelling {segments segments' : List Text}
    (h : Respelling segments segments') (reading : Option CheckKind) :
    reading ∈ readings segments ↔ reading ∈ readings segments' := by
  rw [mem_readings_iff, mem_readings_iff]
  cases h with
  | reorder hperm => simp only [hperm.mem_iff]
  | again hmem =>
    rw [List.exists_mem_cons_iff, or_iff_right_of_imp]
    exact fun hread => ⟨_, hmem, hread⟩
  | rename hname hname' =>
    simp only [List.exists_mem_cons_iff, isBlankLine_of_isNamedBy hname,
      isBlankLine_of_isNamedBy hname', ofText?_eq_some_iff.mpr hname,
      ofText?_eq_some_iff.mpr hname']
  | blank hblank =>
    simp only [List.exists_mem_cons_iff, hblank, Bool.true_eq_false, false_and, false_or]

theorem mem_readings_of_eqvGen {segments segments' : List Text}
    (h : Relation.EqvGen Respelling segments segments') (reading : Option CheckKind) :
    reading ∈ readings segments ↔ reading ∈ readings segments' := by
  induction h with
  | rel _ _ hstep => exact mem_readings_of_respelling hstep reading
  | refl _ => exact Iff.rfl
  | symm _ _ _ ih => exact ih.symm
  | trans _ _ _ _ _ first second => exact first.trans second

/-! ## The word for all checks -/

/-- Whether a text is the word for all checks, each letter small or capital, between blanks. -/
def SpellsAll (s : Text) : Prop :=
  ∃ a l l', Text.trim s = [a, l, l'] ∧
    (a = 'a' ∨ a = 'A') ∧ (l = 'l' ∨ l = 'L') ∧ (l' = 'l' ∨ l' = 'L')

theorem isAll_eq_true_iff : isAll s = true ↔ SpellsAll s := by
  have hword : "all".toList = ['a', 'l', 'l'] := rfl
  have ha (c : Char) : c.toLower = 'a' ↔ c = 'a' ∨ c = 'A' := Text.toLower_eq_iff (by decide)
  have hl (c : Char) : c.toLower = 'l' ↔ c = 'l' ∨ c = 'L' := Text.toLower_eq_iff (by decide)
  rw [isAll, beq_iff_eq, hword]
  constructor
  · intro h
    obtain ⟨a, _, htrim, hfirst, hrest⟩ := List.map_eq_cons_iff.mp h
    obtain ⟨l, _, rfl, hsecond, hrest⟩ := List.map_eq_cons_iff.mp hrest
    obtain ⟨l', _, rfl, hthird, hnil⟩ := List.map_eq_cons_iff.mp hrest
    obtain rfl := List.map_eq_nil_iff.mp hnil
    exact ⟨a, l, l', htrim, (ha a).mp hfirst, (hl l).mp hsecond, (hl l').mp hthird⟩
  · rintro ⟨a, l, l', htrim, hfirst, hsecond, hthird⟩
    rw [htrim, List.map_cons, List.map_cons, List.map_cons, List.map_nil, (ha a).mpr hfirst,
      (hl l).mpr hsecond, (hl l').mpr hthird]

theorem isAll_eq_false_iff : isAll s = false ↔ ¬ SpellsAll s := by
  rw [← isAll_eq_true_iff, Bool.not_eq_true]

/-- The word for all checks is no name. -/
theorem not_recognised_of_spellsAll (h : SpellsAll s) : ¬ Recognised (Text.trim s) := by
  obtain ⟨a, l, l', htrim, ha, hl, hl'⟩ := h
  rw [htrim, ← ofText?_eq_none_iff]
  rcases ha with rfl | rfl <;> rcases hl with rfl | rfl <;> rcases hl' with rfl | rfl <;> decide

/-- The word for all checks is a single segment that is no name. -/
theorem none_mem_readings_of_spellsAll (h : SpellsAll s) : none ∈ readings (s.splitOn ',') := by
  have hcomma : ',' ∉ s := by
    obtain ⟨a, l, l', htrim, ha, hl, hl'⟩ := h
    have hblank {q : Text} (hq : Text.isBlankLine q = true) : ',' ∉ q := fun hmem =>
      absurd (List.all_eq_true.mp hq ',' hmem) (by decide)
    rw [← Text.blanks_append_trim s, htrim, List.mem_append, List.mem_append, not_or, not_or]
    refine ⟨⟨hblank (Text.isBlankLine_leadingBlanks s), ?_⟩,
      hblank (Text.isBlankLine_trailingBlanks s)⟩
    rcases ha with rfl | rfl <;> rcases hl with rfl | rfl <;> rcases hl' with rfl | rfl <;> decide
  have hsome : Text.isBlankLine s = false := by
    obtain ⟨a, l, l', htrim, -⟩ := h
    rw [← Bool.not_eq_true, ← Text.trim_eq_nil_iff, htrim]
    exact List.cons_ne_nil _ _
  rw [List.splitOn_eq_singleton hcomma, mem_readings_iff]
  exact ⟨s, List.mem_singleton_self s, hsome,
    ofText?_eq_none_iff.mpr (not_recognised_of_spellsAll h)⟩

/-! ## Selections -/

/-- A selection that can be read by its names stands for the same checks however it is respelled. -/
theorem parseList_of_respelled (hall : ¬ SpellsAll s) (h : parseList s = .ok kinds)
    (hrespelled : Respelled s s') : parseList s' = .ok kinds := by
  have hreadings := mem_readings_of_eqvGen hrespelled
  obtain ⟨hsome, hknown, hkinds⟩ := (parseList_eq_ok_iff (isAll_eq_false_iff.mpr hall)).mp h
  have hall' : ¬ SpellsAll s' := fun hspells =>
    hknown ((hreadings none).mpr (none_mem_readings_of_spellsAll hspells))
  refine (parseList_eq_ok_iff (isAll_eq_false_iff.mpr hall')).mpr ⟨?_, ?_, ?_⟩
  · obtain ⟨reading, hreading⟩ := List.exists_mem_of_ne_nil _ hsome
    exact List.ne_nil_of_mem ((hreadings reading).mp hreading)
  · rwa [← hreadings none]
  · simp only [hkinds, hreadings]

theorem parseList_of_spellsAll (h : SpellsAll s) : parseList s = .ok all := by
  rw [parseList, if_pos (isAll_eq_true_iff.mpr h)]

theorem readings_eq_nil_iff : readings (s.splitOn ',') = [] ↔ names s = [] := List.map_eq_nil_iff

theorem none_mem_readings_iff :
    none ∈ readings (s.splitOn ',') ↔ ∃ name ∈ names s, ¬ Recognised name := by
  simp only [← ofText?_eq_none_iff]
  exact List.mem_map

theorem some_mem_readings_iff :
    some kind ∈ readings (s.splitOn ',') ↔ ∃ name ∈ names s, kind.IsNamedBy name := by
  simp only [← ofText?_eq_some_iff]
  exact List.mem_map

theorem exists_parseList_eq_ok_iff : (∃ kinds, parseList s = .ok kinds) ↔
    SpellsAll s ∨ names s ≠ [] ∧ ∀ name ∈ names s, Recognised name := by
  by_cases hall : SpellsAll s
  · exact iff_of_true ⟨_, parseList_of_spellsAll hall⟩ (.inl hall)
  · simp only [parseList_eq_ok_iff (isAll_eq_false_iff.mpr hall), readings_eq_nil_iff,
      none_mem_readings_iff, ne_eq, not_exists, not_and, not_not, hall, false_or, ← and_assoc,
      exists_and_left, exists_eq, and_true]

theorem pairwise_rank_of_parseList_eq_ok (h : parseList s = .ok kinds) :
    kinds.Pairwise fun kind later => kind.rank < later.rank := by
  have hordered : all.Pairwise fun kind later => kind.rank < later.rank := by decide
  by_cases hall : SpellsAll s
  · obtain rfl := Except.ok.inj (h.symm.trans (parseList_of_spellsAll hall))
    exact hordered
  · rw [((parseList_eq_ok_iff (isAll_eq_false_iff.mpr hall)).mp h).2.2]
    exact hordered.filter _

theorem mem_iff_of_parseList_eq_ok (h : parseList s = .ok kinds) :
    kind ∈ kinds ↔ SpellsAll s ∨ ∃ name ∈ names s, kind.IsNamedBy name := by
  by_cases hall : SpellsAll s
  · obtain rfl := Except.ok.inj (h.symm.trans (parseList_of_spellsAll hall))
    exact iff_of_true (mem_all kind) (.inl hall)
  · rw [((parseList_eq_ok_iff (isAll_eq_false_iff.mpr hall)).mp h).2.2, List.mem_filter,
      decide_eq_true_eq, some_mem_readings_iff]
    simp only [mem_all, true_and, hall, false_or]

theorem message_unknownChecks (listed : List Text) :
    (SelectionError.unknownChecks listed).message =
      "unknown checks: ".toList ++ List.intercalate ", ".toList listed ++
        " (available: structure, manifest, frontmatter, tools, tokens)".toList := by
  have hcomma : ", ".toList = [',', ' '] := rfl
  have havailable : " (available: structure, manifest, frontmatter, tools, tokens)".toList =
      " (available: ".toList ++
        (List.intercalate [',', ' '] (all.map fun kind => kind.word.toList) ++ [')']) := by decide
  rw [havailable, hcomma]
  unfold SelectionError.message
  simp only [List.append_assoc]

/-- A selection can be read when it is the word for all checks or some names that are all known. It
stands for the kinds it names in the order in which they run, each once. One that is read by its
names stands for the same however it is respelled, which the word for all checks does not: it is
read only where it stands alone. A selection with names that are not known fails with these names in
its own order. -/
theorem selection_as_written (s : Text) :
    ((∃ kinds, parseList s = .ok kinds) ↔
      SpellsAll s ∨ names s ≠ [] ∧ ∀ name ∈ names s, Recognised name) ∧
    (∀ kinds, parseList s = .ok kinds →
      kinds.Pairwise (fun kind later => kind.rank < later.rank) ∧
      (∀ kind, kind ∈ kinds ↔ SpellsAll s ∨ ∃ name ∈ names s, kind.IsNamedBy name) ∧
      (¬ SpellsAll s → ∀ s', Respelled s s' → parseList s' = .ok kinds)) ∧
    (∀ e, parseList s = .error e → (∃ name ∈ names s, ¬ Recognised name) →
      e = .unknownChecks ((names s).filter fun name => ¬ Recognised name) ∧
      e.message = "unknown checks: ".toList ++
        List.intercalate ", ".toList ((names s).filter fun name => ¬ Recognised name) ++
        " (available: structure, manifest, frontmatter, tools, tokens)".toList) := by
  refine ⟨exists_parseList_eq_ok_iff, fun kinds h => ⟨pairwise_rank_of_parseList_eq_ok h,
    fun kind => mem_iff_of_parseList_eq_ok h, fun hall s' => parseList_of_respelled hall h⟩, ?_⟩
  rintro e h ⟨name, hname, hunknown⟩
  rcases parseList_eq_error h with ⟨-, he⟩ | ⟨hnone, -⟩
  · exact ⟨he, he ▸ message_unknownChecks _⟩
  · rw [hnone] at hname
    cases hname

/-- Two names, and the same kinds with one of them twice, under other words and in another order,
and with a blank segment. -/
theorem budget_structure_respelled :
    Respelled "budget, structure".toList "STRUCTURE ,,Tokens,budget".toList := by
  have hbefore : "budget, structure".toList.splitOn ',' =
      ["budget".toList, " structure".toList] := by decide
  have hafter : "STRUCTURE ,,Tokens,budget".toList.splitOn ',' =
      ["STRUCTURE ".toList, [], "Tokens".toList, "budget".toList] := by decide
  have htokens : tokens.IsNamedBy (Text.trim "budget".toList) ∧
      tokens.IsNamedBy (Text.trim "Tokens".toList) := by
    simp only [← ofText?_eq_some_iff]
    decide
  have hstructure : layout.IsNamedBy (Text.trim " structure".toList) ∧
      layout.IsNamedBy (Text.trim "STRUCTURE ".toList) := by
    simp only [← ofText?_eq_some_iff]
    decide
  rw [Respelled, hbefore, hafter]
  refine .trans _ _ _ (.rel _ _ (.again (List.mem_cons_self))) ?_
  refine .trans _ _ _ (.rel _ _ (.rename htokens.1 htokens.2)) ?_
  refine .trans _ [" structure".toList, "Tokens".toList, "budget".toList] _
    (.rel _ _ (.reorder (by decide))) ?_
  refine .trans _ _ _ (.rel _ _ (.rename hstructure.1 hstructure.2)) ?_
  refine .trans _ ([] :: _) _ (.rel _ _ (.blank rfl)) ?_
  exact .rel _ _ (.reorder (by decide))

theorem selection_as_written_of_names :
    parseList "budget, structure".toList = .ok [.layout, .tokens] ∧
    parseList "STRUCTURE ,,Tokens,budget".toList = .ok [.layout, .tokens] ∧
    ¬ SpellsAll "budget, structure".toList ∧
    (SelectionError.unknownChecks ["x".toList, "all".toList]).message =
      "unknown checks: x, all (available: structure, manifest, frontmatter, tools, tokens)".toList
    := by
  have hread : parseList "budget, structure".toList = .ok [.layout, .tokens] := by
    rw [parseList_eq]
    decide
  have hall : ¬ SpellsAll "budget, structure".toList := by
    rw [← isAll_eq_false_iff]
    decide
  obtain ⟨-, -, hrespelled⟩ := (selection_as_written "budget, structure".toList).2.1 _ hread
  have hfailed : parseList "x,tools, all".toList =
      .error (.unknownChecks ["x".toList, "all".toList]) := by decide
  obtain ⟨-, hmessage⟩ := (selection_as_written "x,tools, all".toList).2.2 _ hfailed (by decide)
  exact ⟨hread, hrespelled hall _ budget_structure_respelled, hall, hmessage⟩

/-- The word for all checks is not read beside a blank segment. -/
theorem not_respelled_all :
    parseList "all".toList = .ok all ∧
    parseList "all,".toList = .error (.unknownChecks ["all".toList]) ∧
    ¬ ∀ s s' kinds, Respelled s s' → parseList s = .ok kinds → parseList s' = .ok kinds := by
  have halone : parseList "all".toList = .ok all := by decide
  have hbeside : parseList "all,".toList = .error (.unknownChecks ["all".toList]) := by decide
  refine ⟨halone, hbeside, fun h => ?_⟩
  have hbefore : "all".toList.splitOn ',' = ["all".toList] := by decide
  have hafter : "all,".toList.splitOn ',' = ["all".toList, []] := by decide
  have hrespelled : Respelled "all".toList "all,".toList := by
    rw [Respelled, hbefore, hafter]
    refine .trans _ [[], "all".toList] _ (.rel _ _ (.blank rfl)) ?_
    exact .rel _ _ (.reorder (by decide))
  have hread := h _ _ _ hrespelled halone
  rw [hbeside] at hread
  cases hread

end PluginLint.CheckKind
