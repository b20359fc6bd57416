import PluginLint.Proofs.Json.RoundTrip
import PluginLint.Text.Lines

/-!
# Where members are written

A text is gone through character by character: how many arrays and objects are open and whether
quotes are (`Place`). What is read as a value leaves the place as it was (`Neutral`), so a member
that is read of an object has its key written where that object is the innermost one that is open
(`KeyedIn`). For the outermost object this is a place of the whole text (`exists_writesMember`).
-/
namespace PluginLint.Json

/-! ## Places -/

inductive Quoting where
  | outside
  | inside
  | escaped
  deriving DecidableEq, Repr

/-- How many arrays and objects are open at a place of a text and whether it is in quotes. -/
structure Place where
  depth : Nat
  quoting : Quoting
  deriving DecidableEq, Repr

namespace Place

def next : Place → Char → Place
  | ⟨depth, .escaped⟩, _ => ⟨depth, .inside⟩
  | ⟨depth, .inside⟩, c =>
    if c = '"' then ⟨depth, .outside⟩ else if c = '\\' then ⟨depth, .escaped⟩ else ⟨depth, .inside⟩
  | ⟨depth, .outside⟩, c =>
    if c = '"' then ⟨depth, .inside⟩
    else if c = '[' ∨ c = '{' then ⟨depth + 1, .outside⟩
    else if c = ']' ∨ c = '}' then ⟨depth - 1, .outside⟩
    else ⟨depth, .outside⟩

/-- The place behind a text that starts at a place. -/
def after (p : Place) (s : Text) : Place := s.foldl next p

theorem after_cons (p : Place) (c : Char) (s : Text) : p.after (c :: s) = (p.next c).after s := rfl

theorem after_append (p : Place) (s t : Text) : p.after (s ++ t) = (p.after s).after t :=
  List.foldl_append

end Place

/-- Whether a text leaves the place as it was, outside of quotes. -/
def Neutral (s : Text) : Prop := ∀ depth, (Place.mk depth .outside).after s = ⟨depth, .outside⟩

/-- Whether a text closes one array or object. -/
def Closes (s : Text) : Prop :=
  ∀ depth, (Place.mk (depth + 1) .outside).after s = ⟨depth, .outside⟩

section Neutral

variable {s t : Text}

theorem neutral_nil : Neutral [] := fun _ => rfl

theorem Neutral.append (hs : Neutral s) (ht : Neutral t) : Neutral (s ++ t) := by
  intro depth
  rw [Place.after_append, hs, ht]

theorem Neutral.closes (hs : Neutral s) (ht : Closes t) : Closes (s ++ t) := by
  intro depth
  rw [Place.after_append, hs, ht]

theorem Closes.neutral {c : Char} (hc : c = '[' ∨ c = '{') (hs : Closes s) :
    Neutral (c :: s) := by
  intro depth
  have hnext : (Place.mk depth .outside).next c = ⟨depth + 1, .outside⟩ := by
    rcases hc with rfl | rfl <;> rfl
  rw [Place.after_cons, hnext, hs]

theorem neutral_of_forall (h : ∀ c ∈ s, c ∉ ['"', '[', '{', ']', '}']) : Neutral s := by
  intro depth
  induction s with
  | nil => rfl
  | cons c s ih =>
    rw [List.forall_mem_cons] at h
    have hnext : (Place.mk depth .outside).next c = ⟨depth, .outside⟩ := by
      have hc := h.1
      simp only [List.mem_cons, List.not_mem_nil, or_false, not_or] at hc
      simp [Place.next, hc]
    rw [Place.after_cons, hnext, ih h.2]

theorem neutral_singleton {c : Char} (h : c ∉ ['"', '[', '{', ']', '}']) : Neutral [c] :=
  neutral_of_forall (List.forall_mem_singleton.mpr h)

theorem neutral_blanks (h : ∀ c ∈ s, isJsonBlank c = true) : Neutral s := by
  refine neutral_of_forall fun c hc hmark => ?_
  have hblank := h c hc
  simp only [List.mem_cons, List.not_mem_nil, or_false] at hmark
  rcases hmark with rfl | rfl | rfl | rfl | rfl <;> cases hblank

theorem exists_neutral_blanks (s : Text) :
    ∃ blanks, s = blanks ++ skipBlanks s ∧ Neutral blanks := by
  obtain ⟨blanks, hs, hblanks⟩ := exists_blanks s
  exact ⟨blanks, hs, neutral_blanks hblanks⟩

theorem IsWord.neutral {v : Json} (h : IsWord s v) : Neutral s := by
  have hall : s.all fun c => !decide (c ∈ ['"', '[', '{', ']', '}']) := by
    cases h <;> decide
  exact neutral_of_forall (by simpa using hall)

theorem NumberText.neutral {x : Number} (h : NumberText s x) : Neutral s := by
  refine neutral_of_forall fun c hc hmark => ?_
  have hnumber := h.isNumberChar c hc
  simp only [List.mem_cons, List.not_mem_nil, or_false] at hmark
  revert hnumber
  unfold IsNumberChar
  rcases hmark with rfl | rfl | rfl | rfl | rfl <;> decide

theorem plain_of_hexValue? {c : Char} {n : Nat} (h : hexValue? c = some n) :
    c ≠ '"' ∧ c ≠ '\\' := by
  constructor <;> rintro rfl <;> cases h

theorem plain_of_hexQuad? {a b c d : Char} {n : Nat} (h : hexQuad? a b c d = some n) :
    ∀ x ∈ [a, b, c, d], x ≠ '"' ∧ x ≠ '\\' := by
  simp only [hexQuad?, Option.pure_def, Option.bind_eq_bind, Option.bind_eq_some_iff] at h
  obtain ⟨_, ha, _, hb, _, hc, _, hd, -⟩ := h
  simp only [List.forall_mem_cons]
  exact ⟨plain_of_hexValue? ha, plain_of_hexValue? hb, plain_of_hexValue? hc,
    plain_of_hexValue? hd, List.forall_mem_nil _⟩

/-- What stands for a character keeps the quotes open. -/
theorem CharText.after_inside {c : Char} (h : CharText s c) (depth : Nat) :
    (Place.mk depth .inside).after s = ⟨depth, .inside⟩ := by
  cases h with
  | plain hquote hslash _ => simp [Place.after, Place.next, hquote, hslash]
  | letter => simp [Place.after, Place.next]
  | unit h =>
    have hplain := plain_of_hexQuad? h
    simp only [List.forall_mem_cons] at hplain
    simp [Place.after, Place.next, hplain]
  | pair hhigh hlow =>
    have hplain := plain_of_hexQuad? hhigh
    have hplain' := plain_of_hexQuad? hlow
    simp only [List.forall_mem_cons] at hplain hplain'
    simp [Place.after, Place.next, hplain, hplain']

theorem StringText.after_inside (h : StringText s t) (depth : Nat) :
    (Place.mk depth .inside).after s = ⟨depth, .inside⟩ := by
  induction h with
  | nil => rfl
  | cons first _ ih => rw [Place.after_append, first.after_inside, ih]

theorem StringText.neutral (h : StringText s t) : Neutral ('"' :: (s ++ ['"'])) := by
  intro depth
  have hopen : (Place.mk depth .outside).next '"' = ⟨depth, .inside⟩ := rfl
  rw [Place.after_cons, hopen, Place.after_append, h.after_inside]
  rfl

end Neutral

/-! ## What is read -/

/-- Whether a key stands in a text, outside of what is opened in it, with a colon behind it. -/
def KeyedIn (s key : Text) : Prop :=
  ∃ before written behind value, s = before ++ '"' :: (written ++ '"' :: behind) ∧
    Neutral before ∧ StringText written key ∧ skipBlanks behind = ':' :: value

theorem KeyedIn.append {front s key : Text} (hfront : Neutral front) (h : KeyedIn s key) :
    KeyedIn (front ++ s) key := by
  obtain ⟨before, written, behind, value, rfl, hbefore, hkey⟩ := h
  exact ⟨front ++ before, written, behind, value, (List.append_assoc ..).symm,
    hfront.append hbefore, hkey⟩

theorem StartsEntry.exists_neutral {first : Bool} {s start : Text} (h : StartsEntry first s start) :
    ∃ front, s = front ++ start ∧ Neutral front := by
  cases first with
  | true =>
    obtain rfl : start = s := h
    exact ⟨[], rfl, neutral_nil⟩
  | false =>
    obtain ⟨more, rfl, rfl⟩ := h
    obtain ⟨blanks, hmore, hblanks⟩ := exists_neutral_blanks more
    have hcomma : Neutral [','] := neutral_singleton (by decide)
    exact ⟨[','] ++ blanks, by rw [List.append_assoc, ← hmore]; rfl, hcomma.append hblanks⟩

/-- Whether the reader, with so many steps left, leaves the place as it was when it reads a value
and closes a list when it reads its items or members, and finds the keys at the list's own place. -/
structure KeepsPlace (fuel : Nat) : Prop where
  value : ∀ {depth s v rest}, readValue fuel depth s = .ok (v, rest) →
    ∃ text, s = text ++ rest ∧ Neutral text
  items : ∀ {depth first s items rest}, readItems fuel depth first s = .ok (items, rest) →
    ∃ text, s = text ++ rest ∧ Closes text
  members : ∀ {depth first s members rest}, readMembers fuel depth first s = .ok (members, rest) →
    (∃ text, s = text ++ rest ∧ Closes text) ∧ ∀ m ∈ members, KeyedIn s m.1

namespace KeepsPlace

variable {fuel depth : Nat} {first : Bool} {s rest : Text}

theorem of_valueStep (hfuel : KeepsPlace fuel) {v : Json} (h : ValueStep fuel s rest depth v) :
    ∃ text, s = text ++ rest ∧ Neutral text := by
  cases h with
  | word hword hs => exact ⟨_, hs, hword.neutral⟩
  | @string _ written _ hwritten hs =>
    refine ⟨'"' :: (written ++ ['"']), ?_, hwritten.neutral⟩
    rw [hs, List.cons_append, List.append_assoc, List.singleton_append]
  | number hnumber hs => exact ⟨_, hs, hnumber.neutral⟩
  | array hs hitems =>
    obtain ⟨text, rfl, hcloses⟩ := hfuel.items hitems
    exact ⟨'[' :: text, hs, hcloses.neutral (.inl rfl)⟩
  | object hs hmembers =>
    obtain ⟨⟨text, rfl, hcloses⟩, -⟩ := hfuel.members hmembers
    exact ⟨'{' :: text, hs, hcloses.neutral (.inr rfl)⟩

theorem of_itemsStep (hfuel : KeepsPlace fuel) {items : List Json}
    (h : ItemsStep fuel depth first s rest items) : ∃ text, s = text ++ rest ∧ Closes text := by
  cases h with
  | close hs => exact ⟨[']'], hs, fun _ => rfl⟩
  | item hstart hv hitems =>
    obtain ⟨front, rfl, hfront⟩ := hstart.exists_neutral
    obtain ⟨value, rfl, hvalue⟩ := hfuel.value hv
    obtain ⟨text, rfl, hcloses⟩ := hfuel.items hitems
    refine ⟨front ++ (value ++ text), ?_, hfront.closes (hvalue.closes hcloses)⟩
    rw [List.append_assoc, List.append_assoc]

theorem of_membersStep (hfuel : KeepsPlace fuel) {members : List (Text × Json)}
    (h : MembersStep fuel depth first s rest members) :
    (∃ text, s = text ++ rest ∧ Closes text) ∧ ∀ m ∈ members, KeyedIn s m.1 := by
  cases h with
  | close hs => exact ⟨⟨['}'], hs, fun _ => rfl⟩, List.forall_mem_nil _⟩
  | @member written key colon value behind v members hstart hkey hcolon hv hmembers =>
    obtain ⟨front, rfl, hfront⟩ := hstart.exists_neutral
    obtain ⟨blanks, hblanks, hneutral⟩ := exists_neutral_blanks colon
    obtain ⟨text, rfl, htext⟩ := hfuel.value hv
    obtain ⟨⟨more, rfl, hcloses⟩, hkeys⟩ := hfuel.members hmembers
    have hmark : Neutral [':'] := neutral_singleton (by decide)
    -- the member up to the text behind its value
    have hentry : Neutral (front ++ ('"' :: (written ++ ['"']) ++ (blanks ++ ([':'] ++ text)))) :=
      hfront.append (hkey.neutral.append (hneutral.append (hmark.append htext)))
    have hs : front ++ '"' :: (written ++ '"' :: colon) =
        front ++ ('"' :: (written ++ ['"']) ++ (blanks ++ ([':'] ++ text))) ++ (more ++ rest) := by
      rw [hblanks, hcolon]
      simp
    refine ⟨⟨_, hs.trans (List.append_assoc ..).symm, hentry.closes hcloses⟩, ?_⟩
    refine List.forall_mem_cons.mpr ⟨⟨front, written, colon, _, rfl, hfront, hkey, hcolon⟩, ?_⟩
    intro m hm
    rw [hs]
    exact (hkeys m hm).append hentry

end KeepsPlace

/-- Whatever step the reader starts at, by induction on the steps that are left. -/
theorem keepsPlace (fuel : Nat) : KeepsPlace fuel := by
  induction fuel with
  | zero => exact ⟨fun h => (nomatch h), fun h => (nomatch h), fun h => (nomatch h)⟩
  | succ fuel ih =>
    refine ⟨fun {depth s v rest} h => ?_, fun {depth first s items rest} h => ?_,
      fun {depth first s members rest} h => ?_⟩
    all_goals obtain ⟨blanks, hs, hblanks⟩ := exists_neutral_blanks s
    · obtain ⟨text, htext, hneutral⟩ := ih.of_valueStep (readValue_step h)
      refine ⟨blanks ++ text, ?_, hblanks.append hneutral⟩
      rw [List.append_assoc, ← htext, ← hs]
    · obtain ⟨text, htext, hcloses⟩ := ih.of_itemsStep (readItems_step h)
      refine ⟨blanks ++ text, ?_, hblanks.closes hcloses⟩
      rw [List.append_assoc, ← htext, ← hs]
    · obtain ⟨⟨text, htext, hcloses⟩, hkeys⟩ := ih.of_membersStep (readMembers_step h)
      refine ⟨⟨blanks ++ text, ?_, hblanks.closes hcloses⟩, fun m hm => ?_⟩
      · rw [List.append_assoc, ← htext, ← hs]
      · rw [hs]
        exact (hkeys m hm).append hblanks

/-! ## The outermost object -/

/-- Whether a member of the outermost object has its key written in a text, spelled so, on the line
with a number: it stands where one object is open and no quotes are, with a colon behind it. -/
def WritesMember (raw key written : Text) (n : Nat) : Prop :=
  ∃ before behind value, raw = before ++ '"' :: (written ++ '"' :: behind) ∧
    (Place.mk 0 .outside).after before = ⟨1, .outside⟩ ∧ StringText written key ∧
    skipBlanks behind = ':' :: value ∧ n = Text.newlines before + 1

theorem mem_of_mem_ofMembers {written members : List (Text × Json)} {m : Text × Json}
    (h : ofMembers written = .object members) (hm : m ∈ members) : m ∈ written := by
  obtain rfl : _ = members := Json.object.inj h
  suffices hfold : ∀ found : List (Text × Json),
      m ∈ written.foldl (fun found m => insertMember m.1 m.2 found) found →
      m ∈ found ∨ m ∈ written from
    (hfold [] hm).resolve_left List.not_mem_nil
  clear h hm
  induction written with
  | nil => exact fun found hm => .inl hm
  | cons first rest ih =>
    intro found hm
    rcases ih _ hm with hfound | hrest
    · exact (mem_insertMember hfound).elim (fun h => .inr (List.mem_cons.mpr (.inl h))) .inl
    · exact .inr (List.mem_cons_of_mem _ hrest)

/-- Every member of an object that was read has its key written somewhere. -/
theorem exists_writesMember {raw key : Text} {members : List (Text × Json)} {v : Json}
    (hraw : parse raw = .ok (.object members)) (hv : member? key members = some v) :
    ∃ written n, WritesMember raw key written n := by
  obtain ⟨rest, hread, -⟩ := parse_eq_ok_iff.mp hraw
  obtain ⟨blanks, hs, hblanks⟩ := exists_neutral_blanks raw
  have hstep := readValue_step hread
  generalize hobject : Json.object members = object at hstep
  cases hstep with
  | @object _ more written hmore hmembers =>
    have hkey : (key, v) ∈ written := by
      obtain ⟨front, back, rfl, -⟩ := List.lookup_eq_some_iff.mp hv
      exact mem_of_mem_ofMembers hobject.symm (List.mem_append_right _ List.mem_cons_self)
    obtain ⟨before, text, behind, value, rfl, hbefore, htext, hcolon⟩ :=
      ((keepsPlace _).members hmembers).2 _ hkey
    refine ⟨text, _, blanks ++ '{' :: before, behind, value, ?_, ?_, htext, hcolon, rfl⟩
    · rw [List.append_assoc, List.cons_append, ← hmore, ← hs]
    · have hopen : (Place.mk 0 .outside).next '{' = ⟨1, .outside⟩ := rfl
      rw [Place.after_append, hblanks, Place.after_cons, hopen, hbefore]
  | word h _ => cases h <;> cases hobject
  | string => cases hobject
  | number => cases hobject
  | array => cases hobject

end PluginLint.Json
