import EntityFlux.Proofs.JsonRecords
import Mathlib.Data.List.Forall2

/-!
# Changes that reading passes over

A record or a choice is read from what stands under the names it asks for. Two values are alike
where they differ, under each of these names, only as far as that part may change; the order of the
fields and what else stands among them is left open. What is read from the one is then read, part
by part, from the other.
-/

namespace EntityFlux.Json

/-- Which values may stand in the place of which. -/
abbrev Change := Json → Json → Prop

/-- A value inside which no two fields can change places: nothing is nested in it but objects of at
most one field. -/
inductive Rigid : Json → Prop
  | flat {json : Json} (h : json.depth = 0) : Rigid json
  | empty : Rigid (.obj [])
  | single (name : String) {value : Json} (h : Rigid value) : Rigid (.obj [(name, value)])

/-- A rigid value stays as it is, any other may become anything. -/
def Same : Change := fun json json' => json.Rigid → json' = json

variable {json : Json}

theorem Same.refl (json : Json) : Same json json := fun _ => rfl

theorem Rigid.length_le_one {entries : List (String × Json)} (h : (Json.obj entries).Rigid) :
    entries.length ≤ 1 := by
  cases h with
  | flat h => cases h
  | empty => exact Nat.zero_le 1
  | single name h => exact Nat.le_refl 1

theorem Rigid.of_mem {entries : List (String × Json)} (h : (Json.obj entries).Rigid)
    {entry : String × Json} (hentry : entry ∈ entries) : entry.2.Rigid := by
  cases h with
  | flat h => cases h
  | empty => cases hentry
  | single name h =>
    obtain rfl := List.mem_singleton.1 hentry
    exact h

theorem eq_some_of_same {field : Option Json} (h : Option.Rel Same (some json) field)
    (hrigid : json.Rigid) : field = some json := by
  cases h with
  | some h => rw [h hrigid]

theorem eq_of_perm {α : Type} {xs ys : List α} (h : xs.Perm ys) (hlength : xs.length ≤ 1) :
    ys = xs := by
  match xs, hlength with
  | [], _ => exact List.nil_perm.1 h
  | [x], _ => exact (List.singleton_perm.1 h).symm

theorem mapM_congr {α β : Type} {f g : α → Option β} {xs : List α}
    (h : ∀ x ∈ xs, f x = g x) : xs.mapM f = xs.mapM g := by
  induction xs with
  | nil => rfl
  | cons x xs ih =>
    obtain ⟨hx, hxs⟩ := List.forall_mem_cons.1 h
    rw [List.mapM_cons, List.mapM_cons, hx, ih hxs]

namespace Decode

variable {rules : Rules} {json json' : Json}

/-! ### Readers of rigid values -/

theorem rigid_of_string? {s : String} (h : string? json = some s) : json.Rigid := by
  cases json with
  | str s => exact .flat rfl
  | _ => cases h

theorem rigid_of_bool? {b : Bool} (h : bool? json = some b) : json.Rigid := by
  cases json with
  | bool b => exact .flat rfl
  | _ => cases h

theorem rigid_of_int64? {i : Int64} (h : int64? json = some i) : json.Rigid := by
  cases json with
  | int i => exact .flat rfl
  | _ => cases h

theorem rigid_of_float? {x : Binary64} (h : float? json = some x) : json.Rigid := by
  cases json with
  | float x => exact .flat rfl
  | int i => exact .flat rfl
  | _ => cases h

theorem rigid_of_named? {names : List String} {name : String}
    (h : named? rules names json = some name) : json.Rigid := by
  cases json with
  | str s => exact .flat rfl
  | int position => exact .flat rfl
  | _ => cases h

theorem rigid_of_case? {cases : List (String × List String)} {chosen : String × List String}
    (h : case? rules cases json = some chosen) : json.Rigid := by
  obtain ⟨name, hname, -⟩ := Option.bind_eq_some_iff.1 h
  exact rigid_of_named? hname

theorem rigid_of_word? {words : List String} {word : String}
    (h : word? .inCase words json = some word) : json.Rigid := by
  unfold word? at h
  split at h
  · exact .flat rfl
  · rename_i name beside
    obtain ⟨⟨-, hbeside⟩, -⟩ := Option.ite_none_right_eq_some.1 h
    refine .single name ?_
    simp only [Rules.inCase] at hbeside
    split at hbeside
    · exact .flat rfl
    · exact .empty
    · cases hbeside
  · cases h

/-! ### Records -/

/-- Everything that stands under a name. -/
def under (name : String) (entries : List (String × Json)) : List Json :=
  (entries.filter (·.1 = name)).map (·.2)

theorem get?_eq_head?_under (name : String) (entries : List (String × Json)) :
    Dictionary.get? name entries = (under name entries).head? := by
  induction entries with
  | nil => rfl
  | cons entry entries ih =>
    by_cases h : name = entry.1
    · simp [Dictionary.get?, under, h]
    · rw [Dictionary.get?, if_neg h, ih, under, under, List.filter_cons_of_neg]
      simpa using Ne.symm h

theorem fields_obj (names : List String) (entries : List (String × Json)) :
    fields rules names (.obj entries)
      = if ∀ name ∈ names, (under name entries).length ≤ 1 then
          some (names.map fun name => (under name entries).head?)
        else none := by
  simp [fields, under, get?_eq_head?_under]

/-- Values of the same kind, whose parts differ only as far as they may change: in objects what
stands once under the name of a part, in arrays what stands at its position. -/
inductive Alike (parts : List (String × Change)) : Json → Json → Prop
  | obj {entries entries' : List (String × Json)}
      (h : ∀ part ∈ parts, (under part.1 entries).length ≤ 1 →
        List.Forall₂ part.2 (under part.1 entries) (under part.1 entries')) :
      Alike parts (.obj entries) (.obj entries')
  | arr {items items' : List Json} (hlength : items.length = items'.length)
      (h : ∀ (i : Nat) (part : String × Change), parts[i]? = some part →
        Option.Rel part.2 items[i]? items'[i]?) :
      Alike parts (.arr items) (.arr items')

/-- Fields that differ, one by one, as far as they may change. -/
inductive Parallel : List Change → List (Option Json) → List (Option Json) → Prop
  | nil : Parallel [] [] []
  | cons {change : Change} {changes : List Change} {field field' : Option Json}
      {fields fields' : List (Option Json)} (hfield : Option.Rel change field field')
      (hfields : Parallel changes fields fields') :
      Parallel (change :: changes) (field :: fields) (field' :: fields')

theorem parallel_alignItems {parts : List (String × Change)} {items items' : List Json}
    (h : ∀ (i : Nat) (part : String × Change), parts[i]? = some part →
      Option.Rel part.2 items[i]? items'[i]?) :
    Parallel (parts.map (·.2)) (alignItems (parts.map (·.1)) items)
      (alignItems (parts.map (·.1)) items') := by
  induction parts generalizing items items' with
  | nil => exact .nil
  | cons part parts ih =>
    have hfirst : Option.Rel part.2 items[0]? items'[0]? := h 0 part rfl
    have hrest := fun (i : Nat) (part : String × Change) => h (i + 1) part
    cases items with
    | nil =>
      cases items' with
      | nil => exact .cons .none (ih hrest)
      | cons item' items' => cases hfirst
    | cons item items =>
      cases items' with
      | nil => cases hfirst
      | cons item' items' => exact .cons hfirst (ih hrest)

theorem head?_rel {change : Change} {values values' : List Json}
    (h : List.Forall₂ change values values') : Option.Rel change values.head? values'.head? := by
  cases h with
  | nil => exact .none
  | cons hvalue _ => exact .some hvalue

theorem parallel_map {parts : List (String × Change)} {entries entries' : List (String × Json)}
    (h : ∀ part ∈ parts,
      List.Forall₂ part.2 (under part.1 entries) (under part.1 entries')) :
    Parallel (parts.map (·.2)) ((parts.map (·.1)).map fun name => (under name entries).head?)
      ((parts.map (·.1)).map fun name => (under name entries').head?) := by
  induction parts with
  | nil => exact .nil
  | cons part parts ih =>
    obtain ⟨hpart, hparts⟩ := List.forall_mem_cons.1 h
    exact .cons (head?_rel hpart) (ih hparts)

theorem Alike.fields {parts : List (String × Change)} (halike : Alike parts json json')
    {values : List (Option Json)} (h : fields rules (parts.map (·.1)) json = some values) :
    ∃ values', fields rules (parts.map (·.1)) json' = some values' ∧
      Parallel (parts.map (·.2)) values values' := by
  cases halike with
  | obj halike =>
    rw [fields_obj, Option.ite_none_right_eq_some, Option.some.injEq, List.forall_mem_map] at h
    obtain ⟨honce, rfl⟩ := h
    have hparts : ∀ part ∈ parts, List.Forall₂ part.2 _ _ :=
      fun part hpart => halike part hpart (honce part hpart)
    refine ⟨_, ?_, parallel_map hparts⟩
    rw [fields_obj, if_pos]
    rw [List.forall_mem_map]
    intro part hpart
    rw [← (hparts part hpart).length_eq]
    exact honce part hpart
  | arr hlength halike =>
    rw [Decode.fields, Option.ite_none_right_eq_some, Option.some.injEq] at h
    obtain ⟨hfits, rfl⟩ := h
    refine ⟨_, ?_, parallel_alignItems halike⟩
    rw [Decode.fields, if_pos]
    rwa [← hlength]

/-! ### One change in a record -/

theorem under_append (name : String) (entries others : List (String × Json)) :
    under name (entries ++ others) = under name entries ++ under name others := by
  simp [under]

theorem under_cons_self (name : String) (value : Json) (entries : List (String × Json)) :
    under name ((name, value) :: entries) = value :: under name entries := by
  simp [under]

theorem under_cons_of_ne {name other : String} (h : other ≠ name) (value : Json)
    (entries : List (String × Json)) :
    under name ((other, value) :: entries) = under name entries := by
  simp [under, h]

/-- What stands once under a name is found in any order. -/
theorem under_perm {name : String} {entries entries' : List (String × Json)}
    (h : entries.Perm entries') (honce : (under name entries).length ≤ 1) :
    under name entries' = under name entries :=
  eq_of_perm ((h.filter _).map _) honce

section Change

variable {parts : List (String × Change)}
  (hrefl : ∀ part ∈ parts, ∀ value : Json, part.2 value value)
include hrefl

theorem alike_reorder {entries entries' : List (String × Json)} (h : entries.Perm entries') :
    Alike parts (.obj entries) (.obj entries') := by
  refine .obj fun part hpart honce => ?_
  rw [under_perm h honce, List.forall₂_same]
  exact fun value _ => hrefl part hpart value

theorem alike_insert {name : String} (hname : name ∉ parts.map (·.1)) (value : Json)
    (before after : List (String × Json)) :
    Alike parts (.obj (before ++ after)) (.obj (before ++ (name, value) :: after)) := by
  refine .obj fun part hpart _ => ?_
  have hne : name ≠ part.1 := by
    rintro rfl
    exact hname (List.mem_map_of_mem hpart)
  rw [under_append, under_append, under_cons_of_ne hne, List.forall₂_same]
  exact fun value _ => hrefl part hpart value

theorem alike_field {name : String} {value value' : Json}
    (h : ∀ part ∈ parts, part.1 = name → part.2 value value')
    (before after : List (String × Json)) :
    Alike parts (.obj (before ++ (name, value) :: after))
      (.obj (before ++ (name, value') :: after)) := by
  refine .obj fun part hpart _ => ?_
  have hsame : ∀ values : List Json, List.Forall₂ part.2 values values :=
    fun values => List.forall₂_same.2 fun value _ => hrefl part hpart value
  rw [under_append, under_append]
  refine List.rel_append (hsame _) ?_
  by_cases hname : part.1 = name
  · rw [← hname, under_cons_self, under_cons_self]
    exact .cons (h part hpart hname) (hsame _)
  · rw [under_cons_of_ne (Ne.symm hname), under_cons_of_ne (Ne.symm hname)]
    exact hsame _

theorem alike_item {value value' : Json} (before after : List Json)
    (h : ∀ part, parts[before.length]? = some part → part.2 value value') :
    Alike parts (.arr (before ++ value :: after)) (.arr (before ++ value' :: after)) := by
  refine .arr (by simp) fun i part hpart => ?_
  have hsame : ∀ field : Option Json, Option.Rel part.2 field field := by
    intro field
    cases field with
    | none => exact .none
    | some value => exact .some (hrefl part (List.mem_of_getElem? hpart) value)
  rcases Nat.lt_trichotomy i before.length with hlt | rfl | hgt
  · rw [List.getElem?_append_left hlt, List.getElem?_append_left hlt]
    exact hsame _
  · rw [List.getElem?_append_right (Nat.le_refl _), List.getElem?_append_right (Nat.le_refl _),
      Nat.sub_self]
    exact .some (h part hpart)
  · obtain ⟨j, rfl⟩ := Nat.exists_eq_add_of_lt hgt
    have hle : before.length ≤ before.length + j + 1 := by omega
    rw [List.getElem?_append_right hle, List.getElem?_append_right hle]
    have hposition : before.length + j + 1 - before.length = j + 1 := by omega
    rw [hposition]
    exact hsame _

end Change

/-! ### Choices -/

/-- What stands in the place of a tag: the only value under its name, or the first of an array. -/
def tag? (tagName : String) : Json → Option Json
  | .obj entries =>
    match under tagName entries with
    | [tag] => some tag
    | _ => none
  | .arr items => items.head?
  | _ => none

/-- A choice without its tag. -/
def untagged (tagName : String) : Json → Json
  | .obj entries => .obj (entries.filter (·.1 ≠ tagName))
  | .arr items => .arr items.tail
  | other => other

theorem tagged_eq (tagName : String) (cases : List (String × List String)) :
    tagged rules tagName cases json
      = if ¬ rules.positions ∧ ¬ json.isUsable then none
        else (tag? tagName json).bind fun tag => (case? rules cases tag).bind fun chosen =>
          (fields .inCase chosen.2 (untagged tagName json)).bind fun values =>
            some (chosen.1, values) := by
  unfold tagged
  refine if_congr Iff.rfl rfl ?_
  cases json with
  | obj entries =>
    simp only [tag?, under, untagged]
    cases entries.filter (·.1 = tagName) with
    | nil => rfl
    | cons entry others =>
      cases others with
      | nil => rfl
      | cons other others => rfl
  | arr items =>
    cases items with
    | nil => rfl
    | cons item items => rfl
  | _ => rfl

theorem tagged_eq_some_iff {tagName name : String} {cases : List (String × List String)}
    {values : List (Option Json)} :
    tagged rules tagName cases json = some (name, values) ↔
      (rules.positions ∨ json.isUsable) ∧ ∃ tag, tag? tagName json = some tag ∧
        ∃ names, case? rules cases tag = some (name, names) ∧
          fields .inCase names (untagged tagName json) = some values := by
  rw [tagged_eq, Option.ite_none_left_eq_some]
  refine and_congr (by rw [not_and_or, not_not, not_not]) ?_
  simp [Option.bind_eq_some_iff]

theorem under_filter {name tagName : String} (h : name ≠ tagName)
    (entries : List (String × Json)) :
    under name (entries.filter (·.1 ≠ tagName)) = under name entries := by
  rw [under, List.filter_filter, under]
  congr 2
  funext entry
  by_cases hname : entry.1 = name <;> simp [hname, h]

section Choice

variable {tagName : String} {parts : List (String × Change)}

theorem Alike.tag? (halike : Alike ((tagName, Same) :: parts) json json') {tag : Json}
    (htag : tag? tagName json = some tag) (hrigid : tag.Rigid) :
    Decode.tag? tagName json' = some tag := by
  cases halike with
  | obj halike =>
    simp only [Decode.tag?] at htag
    split at htag
    · rename_i found hunder
      obtain rfl := Option.some.inj htag
      have hsame := halike (tagName, Same) List.mem_cons_self (by simp [hunder])
      rw [hunder, List.forall₂_cons_left_iff] at hsame
      obtain ⟨found', rest, hfound, hrest, hunder'⟩ := hsame
      obtain rfl := List.forall₂_nil_left_iff.1 hrest
      rw [Decode.tag?, hunder']
      exact congrArg some (hfound hrigid)
    · cases htag
  | arr hlength halike =>
    have hsame := halike 0 (tagName, Same) rfl
    rw [Decode.tag?, List.head?_eq_getElem?] at htag ⊢
    rw [htag] at hsame
    exact eq_some_of_same hsame hrigid

theorem Alike.untagged {change : Change} (halike : Alike ((tagName, change) :: parts) json json')
    (htag : tagName ∉ parts.map (·.1)) :
    Alike parts (untagged tagName json) (untagged tagName json') := by
  cases halike with
  | obj halike =>
    refine .obj fun part hpart => ?_
    have hne : part.1 ≠ tagName := by
      rintro rfl
      exact htag (List.mem_map_of_mem hpart)
    rw [under_filter hne, under_filter hne]
    exact halike part (List.mem_cons_of_mem _ hpart)
  | arr hlength halike =>
    refine .arr (by simp [hlength]) fun i part hpart => ?_
    simpa using halike (i + 1) part hpart

theorem Alike.tagged (halike : Alike ((tagName, Same) :: parts) json json')
    (hnames : tagName ∉ parts.map (·.1)) (husable : json.isUsable → json'.isUsable)
    {name : String} {cases : List (String × List String)} {tag : Json}
    (htag : Decode.tag? tagName json = some tag)
    (hcase : case? rules cases tag = some (name, parts.map (·.1)))
    {values : List (Option Json)} (h : tagged rules tagName cases json = some (name, values)) :
    ∃ values', Decode.tagged rules tagName cases json' = some (name, values') ∧
      Parallel (parts.map (·.2)) values values' := by
  obtain ⟨hrules, found, hfound, names, hnamed, hfields⟩ := tagged_eq_some_iff.1 h
  obtain rfl := Option.some.inj (htag.symm.trans hfound)
  obtain ⟨-, rfl⟩ := Prod.mk.inj (Option.some.inj (hcase.symm.trans hnamed))
  obtain ⟨values', hfields', hparallel⟩ := (halike.untagged hnames).fields hfields
  have htag' := halike.tag? htag (rigid_of_case? hcase)
  refine ⟨values', tagged_eq_some_iff.2 ?_, hparallel⟩
  exact ⟨hrules.imp_right husable, tag, htag', _, hcase, hfields'⟩

theorem Alike.tagAndContent {words : List String} {contentName word : String}
    (halike : Alike [(tagName, Same), (contentName, Same)] json json') {content : Option Json}
    (h : tagAndContent .inCase words tagName contentName json = some (word, content)) :
    ∃ content', Decode.tagAndContent .inCase words tagName contentName json'
      = some (word, content') ∧ Option.Rel Same content content' := by
  cases halike with
  | obj hparts =>
    simp only [Decode.tagAndContent, Option.bind_eq_bind, Option.bind_eq_some_iff] at h
    obtain ⟨values, hfields, h⟩ := h
    split at h
    · rename_i tag content
      obtain ⟨word, hword, heq⟩ := Option.map_eq_some_iff.1 h
      obtain ⟨rfl, rfl⟩ := Prod.mk.inj heq
      obtain ⟨values', hfields', hparallel⟩ := (Alike.obj hparts).fields hfields
      obtain - | ⟨htag, - | ⟨hcontent, - | -⟩⟩ := hparallel
      obtain rfl := eq_some_of_same htag (rigid_of_word? hword)
      refine ⟨_, ?_, hcontent⟩
      simp only [List.map_cons, List.map_nil] at hfields'
      simp [Decode.tagAndContent, hfields', hword]
    · cases h
  | arr hlength hparts =>
    rename_i items items'
    obtain - | ⟨tag, - | ⟨content, rest⟩⟩ := items
    · cases h
    · cases h
    obtain - | ⟨tag', - | ⟨content', rest'⟩⟩ := items'
    · simp at hlength
    · simp at hlength
    have htag : Option.Rel Same (some tag) (some tag') := hparts 0 _ rfl
    have hcontent : Option.Rel Same (some content) (some content') := hparts 1 _ rfl
    rw [Decode.tagAndContent, Option.ite_none_right_eq_some] at h
    obtain ⟨hrest, h⟩ := h
    obtain ⟨word, hword, heq⟩ := Option.map_eq_some_iff.1 h
    obtain ⟨rfl, rfl⟩ := Prod.mk.inj heq
    obtain rfl := Option.some.inj (eq_some_of_same htag (rigid_of_named? hword))
    refine ⟨some content', ?_, hcontent⟩
    rw [Decode.tagAndContent, if_pos, hword, Option.map_some]
    have hlengths : rest.length = rest'.length := by simpa using hlength
    rwa [List.isEmpty_iff_length_eq_zero, ← hlengths, ← List.isEmpty_iff_length_eq_zero]

end Choice

/-! ### What readers keep -/

section Kept

variable {α : Type} {value? : Json → Option α}

variable (value?) in
/-- What was read is read again. -/
def Kept : Change := fun json json' => ∀ x : α, value? json = some x → value? json' = some x

/-- Arrays that differ item by item as far as the items may change. -/
def Listed (change : Change) : Change := fun json json' =>
  ∀ items, json = .arr items → ∃ items', json' = .arr items' ∧ List.Forall₂ change items items'

theorem kept_of_same (hrigid : ∀ {json : Json} {x : α}, value? json = some x → json.Rigid)
    (h : Same json json') : Kept value? json json' := by
  intro x hread
  rw [h (hrigid hread)]
  exact hread

theorem Listed.kept {change : Change} (h : Listed change json json')
    (hitem : ∀ {item item' : Json}, change item item' → Kept value? item item') :
    Kept (list? value?) json json' := by
  intro xs hread
  cases json with
  | arr items =>
    obtain ⟨items', rfl, hitems⟩ := h items rfl
    change items.mapM value? = some xs at hread
    change items'.mapM value? = some xs
    clear h
    induction hitems generalizing xs with
    | nil => exact hread
    | cons hfirst hrest ih =>
      simp only [List.mapM_cons, Option.bind_eq_bind, Option.bind_eq_some_iff, Option.pure_def]
        at hread ⊢
      obtain ⟨y, hy, ys, hys, heq⟩ := hread
      exact ⟨y, hitem hfirst y hy, ys, ih ys hys, heq⟩
  | _ => cases hread

section Field

variable {change : Change} {field field' : Option Json} (hfield : Option.Rel change field field')
  (hkept : ∀ {value value' : Json}, change value value' → Kept value? value value')
include hfield hkept

theorem required_kept {x : α} (h : required value? field = some x) :
    required value? field' = some x := by
  cases hfield with
  | some hvalue => exact hkept hvalue x h
  | none => exact h

theorem map_required_kept {β : Type} {f : α → β} {x : β}
    (h : (required value? field).map f = some x) : (required value? field').map f = some x := by
  obtain ⟨y, hread, rfl⟩ := Option.map_eq_some_iff.1 h
  rw [required_kept hfield hkept hread, Option.map_some]

theorem defaulted_kept {default x : α} (h : defaulted default value? field = some x) :
    defaulted default value? field' = some x := by
  cases hfield with
  | some hvalue => exact hkept hvalue x h
  | none => exact h

end Field

/-- What is made of the fields stays the same as long as they change no further than they may. -/
def Steady (changes : List Change) (make? : List (Option Json) → Option α) : Prop :=
  ∀ ⦃values values' : List (Option Json)⦄, Parallel changes values values' →
    ∀ ⦃x : α⦄, make? values = some x → make? values' = some x

theorem Alike.kept {parts : List (String × Change)} {make? : List (Option Json) → Option α}
    (halike : Alike parts json json') (hsteady : Steady (parts.map (·.2)) make?) :
    Kept (fun json => Decode.fields rules (parts.map (·.1)) json >>= make?) json json' := by
  intro x hread
  obtain ⟨values, hfields, hread⟩ := Option.bind_eq_some_iff.1 hread
  obtain ⟨values', hfields', hparallel⟩ := halike.fields hfields
  exact Option.bind_eq_some_iff.2 ⟨values', hfields', hsteady hparallel hread⟩

end Kept

end Decode

end EntityFlux.Json
