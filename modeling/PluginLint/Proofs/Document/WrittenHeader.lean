import PluginLint.Proofs.Document.HeaderBlocks
import PluginLint.Proofs.Document.Sections

/-!
# Headers that are written and read again

A header is written with one line for each field, the key, a colon, a space and the value. What is
read again is what was written (`parse_write`), each field at its own line, as long as a line means
what it says: the key is a key, the value is taken from the line itself and as it stands
(`IsPlain`), no key comes twice and no line holds the delimiter.
-/
namespace PluginLint

namespace Header

/-- A key of one character at least, and a value that a line gives unchanged: no blanks or quotes
are taken away from it, and it opens no fold. -/
structure IsPlain (key value : Text) : Prop where
  key_ne_nil : key ≠ []
  key_chars : ∀ c ∈ key, isKeyChar c = true
  oneLine : '\n' ∉ value
  value_ne_nil : value ≠ []
  trimmed : Text.trim value = value
  no_fold : value ≠ ['|'] ∧ value ≠ ['>']
  unquoted : isWrapped '"' value = false ∧ isWrapped '\'' value = false

/-- The line of a field. -/
def writeLine (field : Text × Text) : Text := field.1 ++ ':' :: ' ' :: field.2

/-- The lines of some fields, one below the other. -/
def writeLines (fields : List (Text × Text)) : Text :=
  fields.flatMap fun field => writeLine field ++ ['\n']

namespace IsPlain

variable {field : Text × Text} (h : IsPlain field.1 field.2)
include h

theorem newline_not_mem : '\n' ∉ writeLine field := by
  have hkey : '\n' ∉ field.1 := fun hmem => absurd (h.key_chars _ hmem) (by decide)
  simp [writeLine, hkey, h.oneLine]

theorem trim_writeLine : Text.trim (writeLine field) = writeLine field := by
  have hkey : Text.trim field.1 = field.1 := by
    rw [Text.trim_eq_self_iff]
    exact ⟨fun c hc => isBlank_of_isKeyChar (h.key_chars c (List.mem_of_mem_head? hc)),
      fun c hc => isBlank_of_isKeyChar (h.key_chars c (List.mem_of_mem_getLast? hc))⟩
  have hline : writeLine field = field.1 ++ [':', ' '] ++ field.2 := by simp [writeLine]
  rw [hline]
  exact Text.trim_between hkey h.trimmed h.key_ne_nil h.value_ne_nil [':', ' ']

theorem getLast?_ne_return : (writeLine field).getLast? ≠ some '\r' := fun hlast =>
  absurd ((Text.trim_eq_self_iff.mp h.trim_writeLine).2 _ hlast) (by decide)

theorem keyLine?_writeLine : keyLine? (writeLine field) = some (field.1, ' ' :: field.2) :=
  keyLine?_eq_some_iff.mpr ⟨h.key_ne_nil, h.key_chars, rfl⟩

theorem inlineValue_eq : inlineValue (' ' :: field.2) = field.2 := by
  have htrim : Text.trim (' ' :: field.2) = field.2 :=
    (Text.trim_blank_append (q := [' ']) (by decide) field.2).trans h.trimmed
  simp [inlineValue, htrim, unquote, h.unquoted]

/-- The line gives its field, whatever comes below. -/
theorem given?_writeLine (number : Nat) (below : List Text) :
    given? number (writeLine field) below = some (field.1, ⟨field.2, number⟩) := by
  have hopen : opensFold field.2 = false := by
    simp [opensFold, h.value_ne_nil, h.no_fold]
  simp [given?, h.keyLine?_writeLine, blockValue?, h.inlineValue_eq, hopen]

end IsPlain

variable {fields : List (Text × Text)}

/-- Written fields are given at the lines on which they stand. -/
theorem givenFields_writeLine (h : ∀ field ∈ fields, IsPlain field.1 field.2) (number : Nat) :
    givenFields number (fields.map writeLine) =
      fields.mapIdx fun i field => (field.1, ⟨field.2, i + number⟩) := by
  induction fields generalizing number with
  | nil => rfl
  | cons field rest ih =>
    rw [List.forall_mem_cons] at h
    have hnumber (i : Nat) : i + (number + 1) = i + 1 + number := by omega
    rw [List.map_cons, givenFields, h.1.given?_writeLine, ih h.2, List.mapIdx_cons, Nat.zero_add]
    simp only [hnumber]
    rfl

theorem newlines_writeLines (h : ∀ field ∈ fields, IsPlain field.1 field.2) :
    Text.newlines (writeLines fields) = fields.length := by
  induction fields with
  | nil => rfl
  | cons field rest ih =>
    rw [List.forall_mem_cons] at h
    have hrest := ih h.2
    rw [writeLines] at hrest
    rw [writeLines, List.flatMap_cons, List.append_assoc, List.singleton_append,
      Text.newlines_line h.1.newline_not_mem, hrest, List.length_cons]

theorem writeLines_eq_intercalate (h : fields ≠ []) :
    writeLines fields = List.intercalate ['\n'] (fields.map writeLine) ++ ['\n'] := by
  induction fields with
  | nil => exact absurd rfl h
  | cons field rest ih =>
    rw [writeLines, List.flatMap_cons, List.map_cons]
    by_cases hrest : rest = []
    · simp [hrest]
    · have hlines := ih hrest
      rw [writeLines] at hlines
      rw [hlines, List.intercalate_cons_of_ne_nil (by simpa using hrest)]
      simp

theorem trim_intercalate_writeLine (hne : fields ≠ [])
    (h : ∀ field ∈ fields, IsPlain field.1 field.2) :
    Text.trim (List.intercalate ['\n'] (fields.map writeLine)) =
      List.intercalate ['\n'] (fields.map writeLine) := by
  induction fields with
  | nil => exact absurd rfl hne
  | cons field rest ih =>
    rw [List.forall_mem_cons] at h
    rw [List.map_cons]
    by_cases hrest : rest = []
    · rw [hrest, List.map_nil, List.intercalate_singleton, h.1.trim_writeLine]
    · have hlines : List.intercalate ['\n'] (rest.map writeLine) ≠ [] := by
        intro hnil
        have hwritten := writeLines_eq_intercalate hrest
        rw [hnil, List.nil_append] at hwritten
        obtain ⟨first, more, rfl⟩ := List.exists_cons_of_ne_nil hrest
        have hlength := congrArg List.length hwritten
        simp only [writeLines, writeLine, List.flatMap_cons, List.length_append, List.length_cons,
          List.length_nil] at hlength
        omega
      rw [List.intercalate_cons_of_ne_nil (by simpa using hrest)]
      exact Text.trim_between h.1.trim_writeLine (ih hrest h.2) (by simp [writeLine]) hlines ['\n']

/-- No blank comes between the opening delimiter and the first key but the end of the line. -/
theorem newlines_leadingBlanks_writeLines (h : ∀ field ∈ fields, IsPlain field.1 field.2) :
    Text.newlines (Text.leadingBlanks ('\n' :: writeLines fields)) = 1 := by
  cases fields with
  | nil => decide
  | cons field rest =>
    have hfield := (List.forall_mem_cons.mp h).1
    obtain ⟨c, more, hkey⟩ := List.exists_cons_of_ne_nil hfield.key_ne_nil
    have hc : Text.isBlank c = false :=
      isBlank_of_isKeyChar (hfield.key_chars c (by simp [hkey]))
    have hfeed : Text.isBlank '\n' = true := by decide
    simp [writeLines, writeLine, hkey, Text.leadingBlanks, hfeed, hc, Text.newlines]

/-- The lines that are read again once the blanks around them are gone. -/
theorem lines_trim_writeLines (h : ∀ field ∈ fields, IsPlain field.1 field.2) :
    Text.lines (Text.trim ('\n' :: writeLines fields)) = fields.map writeLine := by
  by_cases hne : fields = []
  · rw [hne]
    decide
  · have htrim : Text.trim ('\n' :: writeLines fields) =
        List.intercalate ['\n'] (fields.map writeLine) := by
      calc Text.trim ('\n' :: writeLines fields)
          = Text.trim (writeLines fields) := Text.trim_blank_append (q := ['\n']) (by decide) _
        _ = Text.trim (List.intercalate ['\n'] (fields.map writeLine)) := by
            rw [writeLines_eq_intercalate hne, Text.trim_append_blank (by decide)]
        _ = _ := trim_intercalate_writeLine hne h
    rw [htrim]
    apply Text.lines_intercalate
    · exact List.forall_mem_map.mpr fun field hfield => (h field hfield).newline_not_mem
    · exact List.forall_mem_map.mpr fun field _ => by simp [writeLine]
    · exact List.forall_mem_map.mpr fun field hfield => (h field hfield).getLast?_ne_return

end Header

namespace Document

/-- A document with a header of some fields, one line each, above a text. -/
def write (fields : List (Text × Text)) (below : Text) : Text :=
  delimiter ++ '\n' :: Header.writeLines fields ++ delimiter ++ '\n' :: below

variable {fields : List (Text × Text)}

/-- No line holds the delimiter, so the first place of it is behind all of them. -/
theorem cut?_writeLines
    (hdelimiter : ∀ field ∈ fields, Text.occurs delimiter (Header.writeLine field) = false)
    (t : Text) :
    Text.cut? delimiter (Header.writeLines fields ++ delimiter ++ t) =
      some (Header.writeLines fields, t) := by
  induction fields with
  | nil => exact Text.cut?_self_append delimiter t
  | cons field rest ih =>
    rw [List.forall_mem_cons] at hdelimiter
    have hrest := ih hdelimiter.2
    rw [Header.writeLines] at hrest
    have hwhole : Header.writeLines (field :: rest) ++ delimiter ++ t =
        Header.writeLine field ++ '\n' ::
          (rest.flatMap (fun field => Header.writeLine field ++ ['\n']) ++ delimiter ++ t) := by
      simp [Header.writeLines]
    rw [hwhole, Text.cut?_append_cons (by decide) (by decide) hdelimiter.1, hrest]
    simp [Header.writeLines]

theorem sections?_write
    (hdelimiter : ∀ field ∈ fields, Text.occurs delimiter (Header.writeLine field) = false)
    (below : Text) :
    sections? (write fields below) = some ('\n' :: Header.writeLines fields, '\n' :: below) := by
  have hwhole : write fields below =
      delimiter ++ ([] ++ '\n' :: (Header.writeLines fields ++ delimiter ++ '\n' :: below)) := by
    simp [write]
  rw [hwhole, sections?_opened (.inl rfl), cut?_writeLines hdelimiter]
  rfl

/-- What is written is read again: the fields in their order, the `i`th counted from zero on line
`i + 2`, the closing delimiter on the line behind the last of them, and the text below without the
blanks around it. -/
theorem parse_write (fields : List (Text × Text)) (below : Text)
    (hplain : ∀ field ∈ fields, Header.IsPlain field.1 field.2)
    (hkeys : (fields.map Prod.fst).Nodup)
    (hdelimiter : ∀ field ∈ fields, Text.occurs delimiter (Header.writeLine field) = false) :
    (parse (write fields below)).header.fields =
        fields.mapIdx (fun i field => (field.1, ⟨field.2, i + 2⟩)) ∧
      (parse (write fields below)).headerEnd = fields.length + 2 ∧
      (parse (write fields below)).body = Text.trim below := by
  rw [parse_of_sections (sections?_write hdelimiter below)]
  have hgiven := Header.givenFields_writeLine hplain 2
  refine ⟨?_, ?_, ?_⟩
  · have hnodup : ((fields.mapIdx fun i field => (field.1, (⟨field.2, i + 2⟩ : Field))).map
        Prod.fst).Nodup := by
      have hfirst : (fields.mapIdx fun i field => (field.1, (⟨field.2, i + 2⟩ : Field))).map
          Prod.fst = fields.map Prod.fst := by
        apply List.ext_getElem?
        intro i
        simp only [List.getElem?_map, List.getElem?_mapIdx, Option.map_map]
        rfl
      rwa [hfirst]
    simp only [ofSections, Header.newlines_leadingBlanks_writeLines hplain]
    rw [Header.read_eq_setAll, Header.lines_trim_writeLines hplain, hgiven,
      Header.setAll_of_nodup hnodup]
  · have hfeeds : Text.newlines ('\n' :: Header.writeLines fields) = fields.length + 1 := by
      rw [Text.newlines, List.count_cons_self]
      exact congrArg (· + 1) (Header.newlines_writeLines hplain)
    simp only [ofSections, hfeeds]
  · exact Text.trim_blank_append (q := ['\n']) (by decide) below

/-- Values with colons, quotes, hyphens and a return inside. -/
def mixedFields : List (Text × Text) :=
  [("name".toList, "a: b".toList), ("allowed-tools".toList, "\"Bash\", -- 'x'".toList),
    ("x_1".toList, "c\rd".toList)]

theorem parse_write_mixedFields :
    (∀ field ∈ mixedFields, Header.IsPlain field.1 field.2) ∧
      (mixedFields.map Prod.fst).Nodup ∧
      (∀ field ∈ mixedFields, Text.occurs delimiter (Header.writeLine field) = false) ∧
      (parse (write mixedFields "\n# T \n".toList)).header.fields =
        [("name".toList, ⟨"a: b".toList, 2⟩), ("allowed-tools".toList, ⟨"\"Bash\", -- 'x'".toList, 3⟩),
          ("x_1".toList, ⟨"c\rd".toList, 4⟩)] ∧
      (parse (write mixedFields "\n# T \n".toList)).headerEnd = 5 ∧
      (parse (write mixedFields "\n# T \n".toList)).body = "# T".toList := by
  have hplain : ∀ field ∈ mixedFields, Header.IsPlain field.1 field.2 := by
    intro field hfield
    simp only [mixedFields, List.mem_cons, List.not_mem_nil, or_false] at hfield
    rcases hfield with rfl | rfl | rfl
    all_goals exact {
      key_ne_nil := by decide
      key_chars := List.all_eq_true.mp (by decide)
      oneLine := by decide
      value_ne_nil := by decide
      trimmed := by decide
      no_fold := by decide
      unquoted := by decide }
  have hkeys : (mixedFields.map Prod.fst).Nodup := by decide
  have hdelimiter : ∀ field ∈ mixedFields,
      Text.occurs delimiter (Header.writeLine field) = false := by
    intro field hfield
    simp only [mixedFields, List.mem_cons, List.not_mem_nil, or_false] at hfield
    rcases hfield with rfl | rfl | rfl <;> decide
  obtain ⟨hfields, hend, hbody⟩ :=
    parse_write mixedFields "\n# T \n".toList hplain hkeys hdelimiter
  exact ⟨hplain, hkeys, hdelimiter, hfields, hend, hbody.trans (by decide)⟩

end Document
end PluginLint
