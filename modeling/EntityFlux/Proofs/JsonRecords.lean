import EntityFlux.Json.Decode
import EntityFlux.Proofs.JsonText
import Mathlib.Data.List.Nodup

/-!
# Records and choices in JSON

What the fields of a record or of a chosen case hold lies deeper inside than the record itself,
however it is spelled. A record that is written with all its fields, and a case with its tag ahead
of them, are read field by field as they were written.
-/

namespace EntityFlux.Json

theorem areUsable_iff {items : List Json} : areUsable items ↔ ∀ item ∈ items, item.isUsable := by
  induction items with
  | nil => simp [areUsable]
  | cons item items ih => simp [areUsable, ih]

theorem fieldsUsable_iff {entries : List (String × Json)} :
    fieldsUsable entries ↔ ∀ entry ∈ entries, entry.2.isUsable := by
  induction entries with
  | nil => simp [fieldsUsable]
  | cons entry entries ih => simp [fieldsUsable, ih]

/-- Values that are brought back by their text have no unusable part. -/
theorem Exact.isUsable {json : Json} (h : json.Exact) : json.isUsable := by
  induction h with
  | arr _ ih =>
    rw [Json.isUsable]
    exact areUsable_iff.2 ih
  | obj _ ih =>
    rw [Json.isUsable]
    exact fieldsUsable_iff.2 ih
  | _ => rfl

namespace Decode

variable {rules : Rules} {json : Json}

/-! ### What a record holds lies inside it -/

/-- All values that are there lie deeper inside than the record itself. -/
def Inside (values : List (Option Json)) (json : Json) : Prop :=
  ∀ value : Json, some value ∈ values → value.depth < json.depth

theorem depth_lt_arr {items : List Json} {item : Json} (h : item ∈ items) :
    item.depth < (Json.arr items).depth := by
  rw [Json.depth, Nat.lt_add_one_iff]
  exact itemsDepth_le_iff.1 (Nat.le_refl _) item h

theorem depth_lt_obj {entries : List (String × Json)} {entry : String × Json}
    (h : entry ∈ entries) : entry.2.depth < (Json.obj entries).depth := by
  rw [Json.depth, Nat.lt_add_one_iff]
  exact fieldsDepth_le_iff.1 (Nat.le_refl _) entry h

theorem depth_str (s : String) : (Json.str s).depth = 0 := rfl

/-- A record goes one level deeper than what it holds. -/
theorem depth_obj_le {entries : List (String × Json)} {depth : Nat} (hpos : 0 < depth)
    (h : ∀ entry ∈ entries, entry.2.depth < depth) : (Json.obj entries).depth ≤ depth := by
  obtain ⟨n, rfl⟩ : ∃ n, depth = n + 1 := ⟨depth - 1, by omega⟩
  rw [Json.depth, Nat.add_le_add_iff_right, Json.fieldsDepth_le_iff]
  exact fun entry hentry => Nat.le_of_lt_succ (h entry hentry)

theorem mem_of_mem_alignItems {names : List String} {items : List Json} {value : Json}
    (h : some value ∈ alignItems names items) : value ∈ items := by
  induction names generalizing items with
  | nil => simp [alignItems] at h
  | cons name names ih =>
    cases items with
    | nil =>
      simp only [alignItems, List.mem_cons, reduceCtorEq, false_or] at h
      exact ih h
    | cons item items =>
      simp only [alignItems, List.mem_cons, Option.some.injEq] at h
      rcases h with rfl | h
      · exact List.mem_cons_self
      · exact List.mem_cons_of_mem _ (ih h)

theorem fields_obj_mem {names : List String} {entries : List (String × Json)}
    {values : List (Option Json)} (h : fields rules names (.obj entries) = some values)
    {value : Json} (hvalue : some value ∈ values) : ∃ name, (name, value) ∈ entries := by
  rw [fields] at h
  split at h
  · obtain rfl := Option.some.inj h
    obtain ⟨name, -, hget⟩ := List.mem_map.1 hvalue
    exact ⟨name, Dictionary.mem_of_get? hget⟩
  · cases h

theorem fields_arr_mem {names : List String} {items : List Json} {values : List (Option Json)}
    (h : fields rules names (.arr items) = some values) {value : Json}
    (hvalue : some value ∈ values) : value ∈ items := by
  rw [fields] at h
  split at h
  · obtain rfl := Option.some.inj h
    exact mem_of_mem_alignItems hvalue
  · cases h

theorem inside_of_fields {names : List String} {values : List (Option Json)}
    (h : fields rules names json = some values) : Inside values json := by
  intro value hvalue
  cases json with
  | obj entries =>
    obtain ⟨name, hmem⟩ := fields_obj_mem h hvalue
    exact depth_lt_obj hmem
  | arr items => exact depth_lt_arr (fields_arr_mem h hvalue)
  | _ => cases h

theorem inside_of_tagged {tagName name : String} {cases : List (String × List String)}
    {values : List (Option Json)} (h : tagged rules tagName cases json = some (name, values)) :
    Inside values json := by
  intro value hvalue
  unfold tagged at h
  split at h
  · simp at h
  split at h
  · rename_i entries
    split at h
    · simp only [Option.bind_eq_bind, Option.bind_eq_some_iff] at h
      obtain ⟨⟨chosen, names⟩, -, found, hfields, heq⟩ := h
      obtain ⟨rfl, rfl⟩ := Prod.mk.inj (Option.some.inj heq)
      obtain ⟨key, hmem⟩ := fields_obj_mem hfields hvalue
      exact depth_lt_obj (List.mem_filter.1 hmem).1
    · simp at h
  · simp only [Option.bind_eq_bind, Option.bind_eq_some_iff] at h
    obtain ⟨⟨chosen, names⟩, -, found, hfields, heq⟩ := h
    obtain ⟨rfl, rfl⟩ := Prod.mk.inj (Option.some.inj heq)
    exact depth_lt_arr (List.mem_cons_of_mem _ (fields_arr_mem hfields hvalue))
  · simp at h

theorem depth_pos_of_fields {names : List String} {values : List (Option Json)}
    (h : fields rules names json = some values) : 0 < json.depth := by
  cases json with
  | obj entries => simp [Json.depth]
  | arr items => simp [Json.depth]
  | _ => cases h

theorem depth_pos_of_tagged {tagName name : String} {cases : List (String × List String)}
    {values : List (Option Json)} (h : tagged rules tagName cases json = some (name, values)) :
    0 < json.depth := by
  cases json with
  | obj entries => simp [Json.depth]
  | arr items => simp [Json.depth]
  | _ => simp [tagged] at h

theorem depth_pos_of_tagAndContent {words : List String} {tagName contentName word : String}
    {content : Option Json}
    (h : tagAndContent rules words tagName contentName json = some (word, content)) :
    0 < json.depth := by
  cases json with
  | obj entries => simp [Json.depth]
  | arr items => simp [Json.depth]
  | _ => cases h

/-! ### Records as they are written -/

section Written

variable {names : List String} {values : List Json} (hlength : names.length = values.length)
include hlength

theorem get?_zip (hnames : names.Nodup) :
    names.map (fun name => Dictionary.get? name (names.zip values)) = values.map some := by
  induction names generalizing values with
  | nil =>
    obtain rfl : values = [] := by simpa using hlength.symm
    rfl
  | cons name names ih =>
    cases values with
    | nil => simp at hlength
    | cons value values =>
      obtain ⟨hname, hnames⟩ := List.nodup_cons.1 hnames
      have hothers :
          names.map (fun other => Dictionary.get? other ((name, value) :: names.zip values))
            = names.map (fun other => Dictionary.get? other (names.zip values)) := by
        refine List.map_congr_left fun other hother => ?_
        rw [Dictionary.get?, if_neg]
        rintro rfl
        exact hname hother
      rw [List.zip_cons_cons, List.map_cons, hothers, ih (by simpa using hlength) hnames]
      simp [Dictionary.get?]

theorem count_zip (hnames : names.Nodup) (name : String) :
    ((names.zip values).filter (·.1 = name)).length ≤ 1 := by
  have hfst : (names.zip values).map Prod.fst = names :=
    List.map_fst_zip (Nat.le_of_eq hlength)
  have hcount : ((names.zip values).filter (·.1 = name)).length = names.count name := by
    nth_rewrite 2 [← hfst]
    rw [List.count, List.countP_map, List.countP_eq_length_filter]
    rfl
  rw [hcount]
  exact List.nodup_iff_count_le_one.1 hnames name

variable (names values) in
theorem fields_zip (rules : Rules) (hnames : names.Nodup) :
    fields rules names (.obj (names.zip values)) = some (values.map some) := by
  rw [fields, if_pos, get?_zip hlength hnames]
  simp [count_zip hlength hnames]

variable (names values) in
theorem tagged_zip {tagName name : String} {cases : List (String × List String)}
    (hcase : cases.find? (·.1 = name) = some (name, names)) (hnames : (tagName :: names).Nodup)
    (husable : rules.positions = false →
      Json.isUsable (.obj ((tagName, .str name) :: names.zip values))) :
    tagged rules tagName cases (.obj ((tagName, .str name) :: names.zip values))
      = some (name, values.map some) := by
  obtain ⟨htag, hnames⟩ := List.nodup_cons.1 hnames
  have hothers : ∀ entry ∈ names.zip values, entry.1 ≠ tagName := by
    rintro ⟨other, value⟩ hentry rfl
    exact htag (List.of_mem_zip hentry).1
  have hchosen : case? rules cases (.str name) = some (name, names) := by
    have hmem : name ∈ cases.map (·.1) :=
      List.mem_map.2 ⟨_, List.mem_of_find?_eq_some hcase, rfl⟩
    simp [case?, named?, hmem, hcase]
  have htags : ((tagName, Json.str name) :: names.zip values).filter (·.1 = tagName)
      = [(tagName, .str name)] := by
    simpa using hothers
  have hfields : ((tagName, Json.str name) :: names.zip values).filter (·.1 ≠ tagName)
      = names.zip values := by
    simpa using hothers
  rw [tagged, if_neg (by simpa using husable)]
  simp only [htags, hfields, hchosen, fields_zip names values hlength .inCase hnames,
    Option.bind_eq_bind, Option.bind_some]

end Written

/-- A field that is not asked for is passed over. -/
theorem fields_unasked {names : List String} {name : String} (h : name ∉ names) (value : Json)
    (entries : List (String × Json)) :
    fields rules names (.obj ((name, value) :: entries)) = fields rules names (.obj entries) := by
  have hne : ∀ other ∈ names, name ≠ other := by
    rintro other hother rfl
    exact h hother
  have hget : names.map (fun other => Dictionary.get? other ((name, value) :: entries))
      = names.map (fun other => Dictionary.get? other entries) := by
    refine List.map_congr_left fun other hother => ?_
    rw [Dictionary.get?, if_neg (hne other hother).symm]
  have hcount : ∀ other ∈ names,
      ((name, value) :: entries).filter (·.1 = other) = entries.filter (·.1 = other) :=
    fun other hother => List.filter_cons_of_neg (by simpa using hne other hother)
  simp only [fields, hget, List.all_eq_true]
  exact if_congr (forall₂_congr fun other hother => by rw [hcount other hother]) rfl rfl

theorem tagAndContent_pair {words : List String} {tagName contentName word : String}
    {content : Json} (hword : word ∈ words) (hnames : tagName ≠ contentName) :
    tagAndContent rules words tagName contentName
      (.obj [(tagName, .str word), (contentName, content)]) = some (word, some content) := by
  have hread : fields rules [tagName, contentName]
      (.obj ([tagName, contentName].zip [.str word, content]))
      = some [some (.str word), some content] :=
    fields_zip [tagName, contentName] [.str word, content] rfl rules (by simpa using hnames)
  rw [List.zip_cons_cons, List.zip_cons_cons, List.zip_nil_right] at hread
  simp [tagAndContent, hread, word?, hword]

end Decode

end EntityFlux.Json
