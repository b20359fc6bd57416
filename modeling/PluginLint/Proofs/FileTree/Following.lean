import PluginLint.FileTree.Basic
import PluginLint.Proofs.FileTree.Path

/-!
# The directories that a path passes

A path is followed segment by segment: the segments in front with the links that are allowed, the
others from there on with those that are left (`follow_append`). So a name behind a path is followed
from where the path leads (`exists_follow_of_locate_join`), and that is a directory
(`isDirectory_of_locate_join`); a trailing slash or links on the way make no difference.
-/
namespace PluginLint

theorem Text.byteCount_append (first rest : Text) :
    byteCount (first ++ rest) = byteCount first + byteCount rest := by
  induction first with
  | nil => simp [byteCount]
  | cons c more ih =>
    simp only [byteCount, List.cons_append, List.foldr_cons] at ih ⊢
    rw [ih, Nat.add_assoc]

theorem Path.byteCount_le_join (p : Path) {child : Text} (hhead : child.head? ≠ some '/') :
    Text.byteCount p.text ≤ Text.byteCount (p.join child).text := by
  obtain ⟨slash, htext⟩ := p.exists_text_join
  rw [htext child hhead, Text.byteCount_append]
  exact Nat.le_add_right _ _

namespace FileTree

variable {t : FileTree}

/-- Segments with others behind them lead as far as they lead alone, and the others from there. -/
theorem descend_append (place : Location) (first rest : List Text) :
    t.descend place (first ++ rest) =
      match t.descend place first with
      | .arrived reached => t.descend reached rest
      | .met directory target behind => .met directory target (behind ++ rest)
      | .failed fault => .failed fault := by
  induction first generalizing place with
  | nil => rfl
  | cons segment more ih =>
    rw [List.cons_append, descend, descend]
    by_cases hdirectory : t.node? place = some .directory
    · rw [if_pos hdirectory, if_pos hdirectory]
      by_cases hhere : segment = [] ∨ segment = ['.']
      · rw [if_pos hhere, if_pos hhere, ih]
      · rw [if_neg hhere, if_neg hhere]
        by_cases hup : segment = ['.', '.']
        · rw [if_pos hup, if_pos hup, ih]
        · rw [if_neg hup, if_neg hup]
          cases t.node? (place ++ [segment]) with
          | none => rfl
          | some node =>
            cases node with
            | link target => rfl
            | file content => exact ih _
            | directory => exact ih _
    · rw [if_neg hdirectory, if_neg hdirectory]

/-- Where segments lead, others behind them are followed from there with the links that are left;
where they lead nowhere, so do all together. -/
theorem follow_append (links : Nat) (place : Location) (first rest : List Text) :
    (∃ fault, t.follow links place first = .error fault ∧
      t.follow links place (first ++ rest) = .error fault) ∨
    ∃ left reached, t.follow links place first = .ok reached ∧
      t.follow links place (first ++ rest) = t.follow left reached rest := by
  have hall := t.descend_append place first rest
  cases hfirst : t.descend place first with
  | arrived reached =>
    rw [hfirst] at hall
    exact .inr ⟨links, reached, by rw [follow, hfirst], by rw [follow, hall, follow]⟩
  | failed fault =>
    rw [hfirst] at hall
    exact .inl ⟨fault, by rw [follow, hfirst], by rw [follow, hall]⟩
  | met directory target behind =>
    rw [hfirst] at hall
    cases links with
    | zero => exact .inl ⟨.linkLoop, by rw [follow, hfirst], by rw [follow, hall]⟩
    | succ left =>
      have hbehind := follow_append left (start target directory) (target.segments ++ behind) rest
      rw [List.append_assoc] at hbehind
      rwa [follow, hfirst, follow, hall]

/-- A segment needs a directory to start from. -/
theorem node?_of_follow_singleton {links : Nat} {place location : Location} {segment : Text}
    (h : t.follow links place [segment] = .ok location) : t.node? place = some .directory := by
  by_contra hno
  unfold follow descend at h
  rw [if_neg hno] at h
  cases h

/-- A trailing slash stays in a directory. -/
theorem follow_trailing_slash {links : Nat} {place : Location}
    (h : t.node? place = some .directory) : t.follow links place [[]] = .ok place := by
  simp [follow, descend, h]

/-- A segment that stands for no part makes no difference before other segments. -/
theorem follow_idle {idle : Text} (hidle : ¬ Path.Counts idle) (links : Nat) (place : Location)
    (first : List Text) {rest : List Text} (hrest : rest ≠ []) :
    t.follow links place (first ++ idle :: rest) = t.follow links place (first ++ rest) := by
  have hhere : idle = [] ∨ idle = ['.'] := by
    rwa [Path.Counts, not_and_or, not_not, not_not] at hidle
  have hskip (reached : Location) : t.descend reached (idle :: rest) = t.descend reached rest := by
    rw [descend]
    by_cases hdirectory : t.node? reached = some .directory
    · rw [if_pos hdirectory, if_pos hhere]
    · obtain ⟨segment, more, rfl⟩ := List.exists_cons_of_ne_nil hrest
      rw [descend, if_neg hdirectory, if_neg hdirectory]
  induction links generalizing place first with
  | zero =>
    rw [follow, follow, descend_append, descend_append]
    cases t.descend place first with
    | arrived reached => simp only [hskip]
    | met directory target behind => rfl
    | failed fault => rfl
  | succ links ih =>
    rw [follow, follow, descend_append, descend_append]
    cases t.descend place first with
    | arrived reached => simp only [hskip]
    | met directory target behind =>
      dsimp only
      rw [← List.append_assoc, ← List.append_assoc, ih]
    | failed fault => rfl

/-- A dot before other segments makes no difference. -/
theorem follow_dot (links : Nat) (place : Location) (first : List Text) {rest : List Text}
    (hrest : rest ≠ []) :
    t.follow links place (first ++ ['.'] :: rest) = t.follow links place (first ++ rest) :=
  follow_idle (fun h => h.2 rfl) links place first hrest

/-- Whether a dot stands in front of what is joined makes no difference while the path is short
enough. -/
theorem locate_join_dot (p : Path) {child : Text} (hne : child ≠ [])
    (hhead : child.head? ≠ some '/')
    (hlimit : Text.byteCount (p.join ('.' :: '/' :: child)).text < pathLimit) :
    t.locate (p.join ('.' :: '/' :: child)) = t.locate (p.join child) := by
  obtain ⟨before, -, hsegments⟩ := p.exists_segments_join
  have hdotted : ('.' :: '/' :: child).head? ≠ some '/' := by simp
  have hsplit : ('.' :: '/' :: child).splitOn '/' = ['.'] :: child.splitOn '/' :=
    List.splitOn_append_cons_self ['.'] child
  have hstart : start (p.join ('.' :: '/' :: child)) t.base = start (p.join child) t.base := by
    rw [start, start, p.isAbsolute_join hhead, p.isAbsolute_join hdotted]
  obtain ⟨slash, hjoin⟩ := p.exists_text_join
  have hshort : Text.byteCount (p.join child).text < pathLimit := by
    have hcount : Text.byteCount ('.' :: '/' :: child) = 2 + Text.byteCount child :=
      Text.byteCount_append ['.', '/'] child
    rw [hjoin _ hdotted, Text.byteCount_append, Text.byteCount_append, hcount] at hlimit
    rw [hjoin _ hhead, Text.byteCount_append, Text.byteCount_append]
    omega
  have htext : (p.join child).text ≠ [] := by simp [hjoin child hhead, hne]
  have htext' : (p.join ('.' :: '/' :: child)).text ≠ [] := by simp [hjoin _ hdotted]
  rw [locate, locate, if_neg htext, if_neg htext', if_neg (Nat.not_le.mpr hshort),
    if_neg (Nat.not_le.mpr hlimit), hstart, hsegments _ hhead, hsegments _ hdotted, hsplit,
    follow_dot _ _ _ (List.splitOn_ne_nil '/' child)]

/-- A path that leads somewhere is not empty. -/
theorem text_ne_nil_of_locate {p : Path} {location : Location} (h : t.locate p = .ok location) :
    p.text ≠ [] := by
  intro hnil
  rw [locate, if_pos hnil] at h
  cases h

/-- A path that leads to a file is short enough. -/
theorem byteCount_lt_of_isFile {p : Path} (h : t.isFile p = true) :
    Text.byteCount p.text < pathLimit := by
  by_contra hlong
  have hlocate : ∃ fault, t.locate p = .error fault := by
    unfold locate
    split
    · exact ⟨_, rfl⟩
    · exact ⟨.tooLong, if_pos (Nat.not_lt.mp hlong)⟩
  obtain ⟨fault, hlocate⟩ := hlocate
  simp [isFile, find?, hlocate] at h

/-- A name behind a path is followed from where the path leads. -/
theorem exists_follow_of_locate_join {p : Path} {child : Text} {location : Location}
    (hp : p.text ≠ []) (hslash : '/' ∉ child) (h : t.locate (p.join child) = .ok location) :
    ∃ place left, t.locate p = .ok place ∧ t.follow left place [child] = .ok location := by
  unfold locate at h
  split at h
  · cases h
  · split at h
    · cases h
    · next hshort =>
      have hhead : child.head? ≠ some '/' := fun hc => hslash (List.mem_of_mem_head? hc)
      obtain ⟨before, hsegments, hbefore⟩ := p.segments_join hslash
      have hstart : start (p.join child) t.base = start p t.base := by
        rw [start, start, p.isAbsolute_join hhead]
      rw [hsegments, hstart] at h
      -- the segments in front lead to a directory, in which the name is looked up
      obtain ⟨place, left, hplace, hchild⟩ : ∃ place left,
          t.follow linkLimit (start p t.base) before = .ok place ∧
            t.follow left place [child] = .ok location := by
        rcases t.follow_append linkLimit (start p t.base) before [child] with
          ⟨fault, -, hfault⟩ | ⟨left, place, hplace, hrest⟩
        · rw [h] at hfault
          cases hfault
        · exact ⟨place, left, hplace, hrest ▸ h⟩
      have hfollow : t.follow linkLimit (start p t.base) p.segments = .ok place := by
        rcases hbefore with rfl | hlast
        · exact hplace
        · rw [← hlast]
          rcases t.follow_append linkLimit (start p t.base) before [[]] with
            ⟨fault, hfault, -⟩ | ⟨left', other, hother, hrest⟩
          · rw [hplace] at hfault
            cases hfault
          · obtain rfl := Except.ok.inj (hplace.symm.trans hother)
            rw [hrest, follow_trailing_slash (node?_of_follow_singleton hchild)]
      have hlimit : ¬ pathLimit ≤ Text.byteCount p.text := fun hlong =>
        hshort (Nat.le_trans hlong (p.byteCount_le_join hhead))
      exact ⟨place, left, by rw [locate, if_neg hp, if_neg hlimit, hfollow], hchild⟩

/-- Where a name behind a path leads somewhere, the path leads to a directory. -/
theorem isDirectory_of_locate_join {p : Path} {child : Text} {location : Location}
    (hp : p.text ≠ []) (hslash : '/' ∉ child) (h : t.locate (p.join child) = .ok location) :
    t.isDirectory p = true := by
  obtain ⟨place, left, hplace, hchild⟩ := exists_follow_of_locate_join hp hslash h
  rw [isDirectory, find?, hplace]
  exact beq_iff_eq.mpr (node?_of_follow_singleton hchild)

/-- A directory with a file in it that a path leads to is no file itself. -/
theorem isDirectory_of_isFile_join {p : Path} {child : Text} (hp : p.text ≠ [])
    (hslash : '/' ∉ child) (h : t.isFile (p.join child) = true) : t.isDirectory p = true := by
  cases hlocate : t.locate (p.join child) with
  | error fault => simp [isFile, find?, hlocate] at h
  | ok location => exact isDirectory_of_locate_join hp hslash hlocate

end FileTree
end PluginLint
