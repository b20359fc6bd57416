import PluginLint.Proofs.Json.Reading

/-!
# What is printed and read again

What the reader gives is nested no deeper than it goes, has its whole numbers in range and the
members of its objects sorted by key (`regular_of_readValue`). Such a value without blanks is read
back as itself as far as its numbers are (`parse_compact`). Whole numbers are; a binary number has
to be printed as a text that reads as that number.
-/
namespace PluginLint.Json

/-! ## Regular values -/

/-- Whether a value is nested no deeper than so many levels, with sorted members and all its numbers
of some kind. -/
inductive Regular (kind : Number → Prop) : Nat → Json → Prop
  | null {depth} : Regular kind depth .null
  | bool {depth b} : Regular kind depth (.bool b)
  | number {depth x} (h : kind x) : Regular kind depth (.number x)
  | string {depth s} : Regular kind depth (.string s)
  | array {depth items} (h : ∀ v ∈ items, Regular kind depth v) :
    Regular kind (depth + 1) (.array items)
  | object {depth members} (hsorted : (members.map Prod.fst).Pairwise (· < ·))
    (h : ∀ m ∈ members, Regular kind depth m.2) : Regular kind (depth + 1) (.object members)

mutual

/-- The numbers in a value. -/
def numbers : Json → List Number
  | .number x => [x]
  | .array items => numbersOfItems items
  | .object members => numbersOfMembers members
  | _ => []

def numbersOfItems : List Json → List Number
  | [] => []
  | v :: rest => numbers v ++ numbersOfItems rest

def numbersOfMembers : List (Text × Json) → List Number
  | [] => []
  | m :: rest => numbers m.2 ++ numbersOfMembers rest

end

theorem numbers_array (items : List Json) : numbers (.array items) = items.flatMap numbers := by
  rw [numbers]
  induction items with
  | nil => rfl
  | cons v rest ih => rw [numbersOfItems, ih, List.flatMap_cons]

theorem numbers_object (members : List (Text × Json)) :
    numbers (.object members) = members.flatMap fun m => numbers m.2 := by
  rw [numbers]
  induction members with
  | nil => rfl
  | cons m rest ih => rw [numbersOfMembers, ih, List.flatMap_cons]

namespace Regular

variable {kind other : Number → Prop} {depth : Nat} {v : Json}

theorem imp (h : Regular kind depth v) (himp : ∀ x ∈ numbers v, kind x → other x) :
    Regular other depth v := by
  induction h with
  | null => exact .null
  | bool => exact .bool
  | number h => exact .number (himp _ (by simp [numbers]) h)
  | string => exact .string
  | array h ih =>
    refine .array fun v hv => ih v hv fun x hx => himp x ?_
    rw [numbers_array]
    exact List.mem_flatMap.mpr ⟨v, hv, hx⟩
  | object hsorted h ih =>
    refine .object hsorted fun m hm => ih m hm fun x hx => himp x ?_
    rw [numbers_object]
    exact List.mem_flatMap.mpr ⟨m, hm, hx⟩

theorem succ (h : Regular kind depth v) : Regular kind (depth + 1) v := by
  induction h with
  | null => exact .null
  | bool => exact .bool
  | number h => exact .number h
  | string => exact .string
  | array _ ih => exact .array ih
  | object hsorted _ ih => exact .object hsorted ih

end Regular

/-! ## Members sorted by key -/

section Members

variable {key k : Text} {v : Json} {members : List (Text × Json)}

theorem mem_insertMember {m : Text × Json} (h : m ∈ insertMember key v members) :
    m = (key, v) ∨ m ∈ members := by
  induction members with
  | nil => exact .inl (List.mem_singleton.mp h)
  | cons first rest ih =>
    unfold insertMember at h
    split_ifs at h
    · exact List.mem_cons.mp h
    · exact (List.mem_cons.mp h).imp_right (List.mem_cons_of_mem _)
    · rcases List.mem_cons.mp h with hfirst | hrest
      · exact .inr (List.mem_cons.mpr (.inl hfirst))
      · exact (ih hrest).imp_right (List.mem_cons_of_mem _)

theorem mem_keys_insertMember (h : k ∈ (insertMember key v members).map Prod.fst) :
    k = key ∨ k ∈ members.map Prod.fst := by
  obtain ⟨m, hm, rfl⟩ := List.mem_map.mp h
  exact (mem_insertMember hm).imp (congrArg Prod.fst) List.mem_map_of_mem

theorem sorted_insertMember (h : (members.map Prod.fst).Pairwise (· < ·)) :
    ((insertMember key v members).map Prod.fst).Pairwise (· < ·) := by
  induction members with
  | nil => simp [insertMember]
  | cons first rest ih =>
    rw [List.map_cons, List.pairwise_cons] at h
    obtain ⟨hfirst, hrest⟩ := h
    unfold insertMember
    split_ifs with hlt heq
    · refine List.pairwise_cons.mpr ⟨?_, List.pairwise_cons.mpr ⟨hfirst, hrest⟩⟩
      exact List.forall_mem_cons.mpr ⟨hlt, fun k hk => List.lt_trans hlt (hfirst k hk)⟩
    · exact List.pairwise_cons.mpr ⟨heq ▸ hfirst, hrest⟩
    · refine List.pairwise_cons.mpr ⟨fun k hk => ?_, ih hrest⟩
      rcases mem_keys_insertMember hk with rfl | hk
      · by_contra hge
        exact heq (List.le_antisymm hge hlt)
      · exact hfirst k hk

/-- A member behind all others is added at the end. -/
theorem insertMember_of_lt (h : ∀ k ∈ members.map Prod.fst, k < key) :
    insertMember key v members = members ++ [(key, v)] := by
  induction members with
  | nil => rfl
  | cons first rest ih =>
    rw [List.map_cons, List.forall_mem_cons] at h
    obtain ⟨hfirst, hrest⟩ := h
    have hne : key ≠ first.1 := by
      rintro rfl
      exact List.lt_irrefl _ hfirst
    unfold insertMember
    rw [if_neg (List.lt_asymm hfirst), if_neg hne, ih hrest]
    rfl

theorem foldl_insertMember_of_sorted {front : List (Text × Json)}
    (h : ((front ++ members).map Prod.fst).Pairwise (· < ·)) :
    members.foldl (fun found m => insertMember m.1 m.2 found) front = front ++ members := by
  induction members generalizing front with
  | nil => rw [List.foldl_nil, List.append_nil]
  | cons first rest ih =>
    have hfront : ∀ k ∈ front.map Prod.fst, k < first.1 := by
      rw [List.map_append, List.pairwise_append] at h
      exact fun k hk => h.2.2 k hk first.1 List.mem_cons_self
    have hsplit : front ++ first :: rest = front ++ [first] ++ rest := by
      rw [List.append_assoc, List.singleton_append]
    rw [hsplit] at h ⊢
    rw [List.foldl_cons, insertMember_of_lt hfront, ih h]

/-- Sorted members that are written are read as they are. -/
theorem ofMembers_of_sorted (h : (members.map Prod.fst).Pairwise (· < ·)) :
    ofMembers members = .object members :=
  congrArg Json.object (foldl_insertMember_of_sorted h)

theorem regular_ofMembers {kind : Number → Prop} {depth : Nat} {written : List (Text × Json)}
    (h : ∀ m ∈ written, Regular kind depth m.2) : Regular kind (depth + 1) (ofMembers written) := by
  suffices hfold : ∀ found : List (Text × Json), (found.map Prod.fst).Pairwise (· < ·) →
      (∀ m ∈ found, Regular kind depth m.2) →
      Regular kind (depth + 1) (.object (written.foldl
        (fun found m => insertMember m.1 m.2 found) found)) from
    hfold [] List.Pairwise.nil (List.forall_mem_nil _)
  induction written with
  | nil => exact fun found hsorted hfound => .object hsorted hfound
  | cons first rest ih =>
    obtain ⟨hfirst, hrest⟩ := List.forall_mem_cons.mp h
    intro found hsorted hfound
    refine ih hrest _ (sorted_insertMember hsorted) fun m hm => ?_
    rcases mem_insertMember hm with rfl | hm
    · exact hfirst
    · exact hfound m hm

end Members

/-! ## What the reader gives -/

/-- Reading gives regular values, at whatever step it starts. -/
theorem regular_of_read (fuel : Nat) :
    (∀ {depth s v rest}, readValue fuel depth s = .ok (v, rest) →
      Regular Number.InRange depth v) ∧
    (∀ {depth first s items rest}, readItems fuel depth first s = .ok (items, rest) →
      ∀ v ∈ items, Regular Number.InRange depth v) ∧
    ∀ {depth first s members rest}, readMembers fuel depth first s = .ok (members, rest) →
      ∀ m ∈ members, Regular Number.InRange depth m.2 := by
  induction fuel with
  | zero => exact ⟨fun h => (nomatch h), fun h => (nomatch h), fun h => (nomatch h)⟩
  | succ fuel ih =>
    obtain ⟨hvalue, hitems, hmembers⟩ := ih
    refine ⟨fun hread => ?_, fun hread => ?_, fun hread => ?_⟩
    · cases readValue_step hread with
      | word h _ =>
        cases h with
        | null => exact .null
        | true => exact .bool
        | false => exact .bool
      | string => exact .string
      | number h _ => exact .number h.inRange
      | array _ h => exact .array (hitems h)
      | object _ h => exact regular_ofMembers (hmembers h)
    · cases readItems_step hread with
      | close => exact List.forall_mem_nil _
      | item _ hv hmore => exact List.forall_mem_cons.mpr ⟨hvalue hv, hitems hmore⟩
    · cases readMembers_step hread with
      | close => exact List.forall_mem_nil _
      | member _ _ _ hv hmore => exact List.forall_mem_cons.mpr ⟨hvalue hv, hmembers hmore⟩

/-- A text is read when its value ends it, blanks apart. -/
theorem parse_eq_ok_iff {s : Text} {v : Json} : parse s = .ok v ↔
    ∃ rest, readValue (2 * s.length + 2) depthLimit s = .ok (v, rest) ∧ skipBlanks rest = [] := by
  have hdocument : parse s = .ok v ↔ readDocument s = .ok v := by
    unfold parse
    split
    · next h => simp [h]
    · next h => simp [h]
  rw [hdocument, readDocument]
  constructor
  · intro h
    obtain ⟨⟨found, rest⟩, hread, hend⟩ := bind_eq_ok_iff.mp h
    dsimp only at hend
    split at hend
    · next hblank =>
      cases hend
      exact ⟨rest, hread, hblank⟩
    · cases hend
  · rintro ⟨rest, hread, hblank⟩
    refine bind_eq_ok_iff.mpr ⟨_, hread, ?_⟩
    dsimp only
    rw [hblank]

theorem regular_of_parse {s : Text} {v : Json} (h : parse s = .ok v) :
    Regular Number.InRange depthLimit v := by
  obtain ⟨rest, hread, -⟩ := parse_eq_ok_iff.mp h
  exact (regular_of_read _).1 hread

/-! ## What is read of what was printed -/

/-- Whether a number is printed as a text that reads as that number. -/
def Number.ReadsBack (x : Number) : Prop := NumberText x.text x

theorem IsNumberChar.not_blank {c : Char} (h : IsNumberChar c) : isJsonBlank c = false := by
  rw [Bool.eq_false_iff]
  intro hblank
  simp only [isJsonBlank, Bool.or_eq_true, beq_iff_eq] at hblank
  obtain ((rfl | rfl) | rfl) | rfl := hblank <;> revert h <;> unfold IsNumberChar <;> decide

theorem NumberText.exists_eq_cons {t : Text} {x : Number} (h : NumberText t x) :
    ∃ c more, t = c :: more ∧ IsNumberChar c := by
  obtain ⟨c, more, rfl⟩ : ∃ c more, t = c :: more := by
    obtain ⟨s, rfl, -⟩ | ⟨⟨c, hhead, -⟩, -⟩ := h
    · exact ⟨_, _, rfl⟩
    · exact ⟨c, List.head?_eq_some_iff.mp hhead⟩
  exact ⟨c, more, rfl, h.isNumberChar c List.mem_cons_self⟩

theorem readsBack_iff {x : Number} : x.ReadsBack ↔ parse x.text = .ok (.number x) := by
  rw [parse_eq_ok_iff]
  constructor
  · intro h
    obtain ⟨c, more, htext, hc⟩ := NumberText.exists_eq_cons h
    have hstart : skipBlanks x.text = x.text := htext ▸ skipBlanks_cons hc.not_blank more
    have hstep : ValueStep (2 * x.text.length + 1) (skipBlanks x.text) [] depthLimit (.number x) :=
      .number h (by rw [hstart, List.append_nil])
    exact ⟨[], hstep.readValue stopsNumber_nil, rfl⟩
  · rintro ⟨rest, hread, hrest⟩
    have hstart : skipBlanks x.text = x.text := by
      cases htext : x.text with
      | nil => rfl
      | cons c more =>
        have hc : c ∈ x.text := htext ▸ List.mem_cons_self
        exact skipBlanks_cons (isNumberChar_text x c hc).not_blank more
    have hstep := readValue_step hread
    rw [hstart] at hstep
    cases hstep with
    | word h _ => cases h
    | number h htext =>
      cases rest with
      | nil =>
        rw [List.append_nil] at htext
        rw [← htext] at h
        exact h
      | cons c rest =>
        have hc : c ∈ x.text := htext ▸ List.mem_append_right _ List.mem_cons_self
        rw [skipBlanks_cons (isNumberChar_text x c hc).not_blank] at hrest
        cases hrest

/-- The items behind the first one, as they are printed. -/
def moreItems : List Json → Text
  | [] => []
  | v :: rest => ',' :: (compact v ++ moreItems rest)

/-- The members behind the first one, as they are printed. -/
def moreMembers : List (Text × Json) → Text
  | [] => []
  | m :: rest => ',' :: (quote m.1 ++ ':' :: (compact m.2 ++ moreMembers rest))

theorem compactItems_cons (v : Json) (rest : List Json) :
    compactItems (v :: rest) = compact v ++ moreItems rest := by
  induction rest generalizing v with
  | nil => rw [compactItems, moreItems, List.append_nil]
  | cons w rest ih => rw [compactItems, moreItems, ih]

theorem compactMembers_cons (m : Text × Json) (rest : List (Text × Json)) :
    compactMembers (m :: rest) = quote m.1 ++ ':' :: (compact m.2 ++ moreMembers rest) := by
  induction rest generalizing m with
  | nil => rw [compactMembers, moreMembers, List.append_nil]
  | cons w rest ih => rw [compactMembers, moreMembers, ih]

/-- What is printed starts with no blank. -/
theorem exists_compact_eq_cons {depth : Nat} {v : Json} (h : Regular Number.ReadsBack depth v) :
    ∃ c more, compact v = c :: more ∧ isJsonBlank c = false := by
  cases h with
  | null => exact ⟨_, _, rfl, rfl⟩
  | @bool _ b => cases b <;> exact ⟨_, _, rfl, rfl⟩
  | number h =>
    obtain ⟨c, more, htext, hc⟩ := NumberText.exists_eq_cons h
    exact ⟨c, more, htext, hc.not_blank⟩
  | string => exact ⟨_, _, rfl, rfl⟩
  | array => exact ⟨_, _, rfl, rfl⟩
  | object => exact ⟨_, _, rfl, rfl⟩

theorem skipBlanks_compact {depth : Nat} {v : Json} (h : Regular Number.ReadsBack depth v)
    (rest : Text) : skipBlanks (compact v ++ rest) = compact v ++ rest := by
  obtain ⟨c, more, hcompact, hc⟩ := exists_compact_eq_cons h
  rw [hcompact, List.cons_append, skipBlanks_cons hc]

/-- Whether a value is read back from what it is printed as, in front of whatever does not go on
with a number. -/
def ReadsBack (depth : Nat) (v : Json) : Prop :=
  ∀ fuel rest, 2 * (compact v).length ≤ fuel → StopsNumber rest →
    readValue fuel depth (compact v ++ rest) = .ok (v, rest)

section Lists

variable {depth : Nat}

theorem stopsNumber_moreItems (items : List Json) (rest : Text) :
    StopsNumber (moreItems items ++ ']' :: rest) := by
  cases items with
  | nil => exact stopsNumber_cons rfl (by decide) _
  | cons v items => exact stopsNumber_cons rfl (by decide) _

theorem stopsNumber_moreMembers (members : List (Text × Json)) (rest : Text) :
    StopsNumber (moreMembers members ++ '\x7d' :: rest) := by
  cases members with
  | nil => exact stopsNumber_cons rfl (by decide) _
  | cons m members => exact stopsNumber_cons rfl (by decide) _

theorem readItems_moreItems {items : List Json}
    (hregular : ∀ v ∈ items, Regular Number.ReadsBack depth v)
    (hread : ∀ v ∈ items, ReadsBack depth v) (rest : Text) {fuel : Nat}
    (hfuel : 2 * (moreItems items).length < fuel) :
    readItems fuel depth false (moreItems items ++ ']' :: rest) = .ok (items, rest) := by
  induction items generalizing fuel with
  | nil =>
    obtain ⟨fuel, rfl⟩ := Nat.exists_eq_add_one_of_ne_zero (Nat.ne_zero_of_lt hfuel)
    exact ItemsStep.readItems (.close (skipBlanks_cons rfl rest))
  | cons v items ih =>
    obtain ⟨hv, hothers⟩ := List.forall_mem_cons.mp hread
    obtain ⟨hvRegular, hregular⟩ := List.forall_mem_cons.mp hregular
    rw [moreItems, List.length_cons, List.length_append] at hfuel
    obtain ⟨fuel, rfl⟩ := Nat.exists_eq_add_one_of_ne_zero (Nat.ne_zero_of_lt hfuel)
    have hstart : StartsEntry false (skipBlanks (moreItems (v :: items) ++ ']' :: rest))
        (compact v ++ (moreItems items ++ ']' :: rest)) := by
      refine ⟨_, ?_, (skipBlanks_compact hvRegular _).symm⟩
      rw [moreItems, List.cons_append, List.append_assoc, skipBlanks_cons rfl]
    exact ItemsStep.readItems (.item hstart (hv _ _ (by omega) (stopsNumber_moreItems items rest))
      (ih hregular hothers (by omega)))

theorem quote_append (key : Text) (behind : Text) :
    quote key ++ behind = '"' :: (key.flatMap escape ++ '"' :: behind) := by
  rw [quote, List.cons_append, List.append_assoc, List.singleton_append]

theorem readMembers_moreMembers {members : List (Text × Json)}
    (hread : ∀ m ∈ members, ReadsBack depth m.2) (rest : Text) {fuel : Nat}
    (hfuel : 2 * (moreMembers members).length < fuel) :
    readMembers fuel depth false (moreMembers members ++ '\x7d' :: rest) =
      .ok (members, rest) := by
  induction members generalizing fuel with
  | nil =>
    obtain ⟨fuel, rfl⟩ := Nat.exists_eq_add_one_of_ne_zero (Nat.ne_zero_of_lt hfuel)
    exact MembersStep.readMembers (.close (skipBlanks_cons rfl rest))
  | cons m members ih =>
    obtain ⟨hm, hothers⟩ := List.forall_mem_cons.mp hread
    rw [moreMembers, List.length_cons, List.length_append, List.length_cons,
      List.length_append] at hfuel
    obtain ⟨fuel, rfl⟩ := Nat.exists_eq_add_one_of_ne_zero (Nat.ne_zero_of_lt hfuel)
    have hstart : StartsEntry false (skipBlanks (moreMembers (m :: members) ++ '\x7d' :: rest))
        ('"' :: (m.1.flatMap escape ++
          '"' :: ':' :: (compact m.2 ++ (moreMembers members ++ '\x7d' :: rest)))) := by
      refine ⟨_, ?_, (skipBlanks_cons rfl _).symm⟩
      rw [moreMembers, List.cons_append, List.append_assoc, List.cons_append, List.append_assoc,
        quote_append, skipBlanks_cons rfl]
    exact MembersStep.readMembers (.member hstart (stringText_escape m.1) (skipBlanks_cons rfl _)
      (hm _ _ (by omega) (stopsNumber_moreMembers members rest)) (ih hothers (by omega)))

end Lists

/-- What is printed of a value is read back when it is the start of one. -/
theorem ReadsBack.of_step {depth : Nat} {v : Json} (hv : Regular Number.ReadsBack depth v)
    (hstep : ∀ fuel rest, 2 * (compact v).length ≤ fuel + 1 →
      ValueStep fuel (compact v ++ rest) rest depth v) : ReadsBack depth v := by
  intro fuel rest hfuel hrest
  obtain ⟨c, more, hcompact, -⟩ := exists_compact_eq_cons hv
  have hpos : 0 < (compact v).length := by rw [hcompact]; exact Nat.succ_pos _
  obtain ⟨fuel, rfl⟩ : ∃ less, fuel = less + 1 := Nat.exists_eq_add_one.mpr (by omega)
  have hvalue := hstep fuel rest hfuel
  rw [← skipBlanks_compact hv] at hvalue
  exact hvalue.readValue hrest

theorem ReadsBack.array {depth : Nat} {items : List Json}
    (hregular : ∀ v ∈ items, Regular Number.ReadsBack depth v)
    (hread : ∀ v ∈ items, ReadsBack depth v) : ReadsBack (depth + 1) (.array items) := by
  refine .of_step (.array hregular) fun fuel rest hfuel => ?_
  have hcompact : compact (.array items) ++ rest =
      '[' :: (compactItems items ++ ']' :: rest) := by
    rw [compact, List.cons_append, List.append_assoc, List.singleton_append]
  refine .array hcompact ?_
  rw [compact, List.length_cons, List.length_append, List.length_singleton] at hfuel
  obtain ⟨fuel, rfl⟩ : ∃ less, fuel = less + 1 := Nat.exists_eq_add_one.mpr (by omega)
  cases items with
  | nil => exact ItemsStep.readItems (.close (skipBlanks_cons rfl rest))
  | cons v items =>
    obtain ⟨hv, hothers⟩ := List.forall_mem_cons.mp hread
    obtain ⟨hvRegular, hregular⟩ := List.forall_mem_cons.mp hregular
    rw [compactItems_cons, List.length_append] at hfuel
    rw [compactItems_cons, List.append_assoc]
    exact ItemsStep.readItems (.item (skipBlanks_compact hvRegular _).symm
      (hv _ _ (by omega) (stopsNumber_moreItems items rest))
      (readItems_moreItems hregular hothers rest (by omega)))

theorem ReadsBack.object {depth : Nat} {members : List (Text × Json)}
    (hsorted : (members.map Prod.fst).Pairwise (· < ·))
    (hregular : ∀ m ∈ members, Regular Number.ReadsBack depth m.2)
    (hread : ∀ m ∈ members, ReadsBack depth m.2) : ReadsBack (depth + 1) (.object members) := by
  refine .of_step (.object hsorted hregular) fun fuel rest hfuel => ?_
  have hcompact : compact (.object members) ++ rest =
      '\x7b' :: (compactMembers members ++ '\x7d' :: rest) := by
    rw [compact, List.cons_append, List.append_assoc, List.singleton_append]
  suffices hmembers : readMembers fuel depth true (compactMembers members ++ '\x7d' :: rest) =
      .ok (members, rest) by
    have hvalue := ValueStep.object hcompact hmembers
    rwa [ofMembers_of_sorted hsorted] at hvalue
  rw [compact, List.length_cons, List.length_append, List.length_singleton] at hfuel
  obtain ⟨fuel, rfl⟩ : ∃ less, fuel = less + 1 := Nat.exists_eq_add_one.mpr (by omega)
  cases members with
  | nil => exact MembersStep.readMembers (.close (skipBlanks_cons rfl rest))
  | cons m members =>
    obtain ⟨hm, hothers⟩ := List.forall_mem_cons.mp hread
    rw [compactMembers_cons, List.length_append, List.length_cons, List.length_append] at hfuel
    rw [compactMembers_cons, List.append_assoc, List.cons_append, List.append_assoc,
      quote_append]
    exact MembersStep.readMembers (.member (skipBlanks_cons rfl _).symm
      (stringText_escape m.1) (skipBlanks_cons rfl _)
      (hm _ _ (by omega) (stopsNumber_moreMembers members rest))
      (readMembers_moreMembers hothers rest (by omega)))

/-- A regular value is read back, by induction on how it is built. -/
theorem Regular.readsBack {depth : Nat} {v : Json} (h : Regular Number.ReadsBack depth v) :
    ReadsBack depth v := by
  induction h with
  | null => exact .of_step .null fun _ _ _ => .word .null rfl
  | @bool _ b =>
    refine .of_step .bool fun _ _ _ => ?_
    cases b
    · exact .word .false rfl
    · exact .word .true rfl
  | number h => exact .of_step (.number h) fun _ _ _ => .number h rfl
  | @string _ t =>
    exact .of_step .string fun _ rest _ => .string (stringText_escape t) (quote_append t rest)
  | array h ih => exact .array h ih
  | object hsorted h ih => exact .object hsorted h ih

theorem parse_compact {v : Json} (h : Regular Number.ReadsBack depthLimit v) :
    parse (compact v) = .ok v := by
  have hread := h.readsBack _ _ (Nat.le_add_right (2 * (compact v).length) 2) stopsNumber_nil
  rw [List.append_nil] at hread
  exact parse_eq_ok_iff.mpr ⟨[], hread, rfl⟩

end PluginLint.Json
