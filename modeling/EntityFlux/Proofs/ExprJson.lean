import EntityFlux.Model.Json
import EntityFlux.Proofs.Instants
import EntityFlux.Proofs.JsonRecords
import EntityFlux.Proofs.Nodes

/-!
# Literals and expressions in JSON

What is read from JSON, in whatever spelling, can be written again: no reader lets a literal through
that has no JSON form, and what is written goes no deeper than what was read (`ReadsFitting`). What
is written is read as what it was, except a duration that is too long to be written at all.
-/

namespace EntityFlux

open Json (Rules)
open Json.Decode

/-! ### Literals -/

namespace Literal

def isFloat : Literal → Bool
  | .float _ => true
  | _ => false

/-- A literal has a JSON form unless it is too long a duration. -/
def Writable (value : Literal) : Prop := value.write = .ok value.json

/-- A literal that its JSON text brings back. -/
def Portable (value : Literal) : Prop := value.Writable ∧ value.isFloat = false

theorem writable_duration_iff {span : Span} : Writable (.duration span)
    ↔ Int64.minValue.toInt ≤ span.nanos ∧ span.nanos ≤ Int64.maxValue.toInt := by
  simp only [Writable, write, Span.toInt64?]
  split_ifs <;> simp_all

theorem writable_ofInt64 (nanos : Int64) : Writable (.duration (Span.ofInt64 nanos)) :=
  writable_duration_iff.2 ⟨nanos.minValue_le_toInt, nanos.toInt_le⟩

theorem depth_json (value : Literal) : value.json.depth = 1 := by
  cases value <;> rfl

theorem writable_of_ofJson? {rules : Rules} {json : Json} {value : Literal}
    (h : ofJson? rules json = some value) : value.Writable := by
  simp only [ofJson?, Option.bind_eq_bind, Option.bind_eq_some_iff] at h
  obtain ⟨⟨word, content⟩, -, found, -, h⟩ := h
  split at h
  · obtain ⟨s, -, rfl⟩ := Option.map_eq_some_iff.1 h
    rfl
  · obtain ⟨i, -, rfl⟩ := Option.map_eq_some_iff.1 h
    rfl
  · obtain ⟨x, -, rfl⟩ := Option.map_eq_some_iff.1 h
    rfl
  · obtain ⟨nanos, -, rfl⟩ := Option.map_eq_some_iff.1 h
    exact writable_ofInt64 nanos
  · obtain ⟨b, -, rfl⟩ := Option.map_eq_some_iff.1 h
    rfl
  · simp only [Option.bind_eq_some_iff] at h
    obtain ⟨text, -, h⟩ := h
    obtain ⟨t, -, rfl⟩ := Option.map_eq_some_iff.1 h
    rfl
  · cases h

theorem depth_pos_of_ofJson? {rules : Rules} {json : Json} {value : Literal}
    (h : ofJson? rules json = some value) : 0 < json.depth := by
  simp only [ofJson?, Option.bind_eq_bind, Option.bind_eq_some_iff] at h
  obtain ⟨⟨word, content⟩, hread, -⟩ := h
  exact depth_pos_of_tagAndContent hread

theorem Portable.exact_json {value : Literal} (h : value.Portable) : value.json.Exact := by
  obtain ⟨h, hfloat⟩ := h
  have htyped : ∀ {word : String} {content : Json}, content.Exact → (typed word content).Exact := by
    intro word content hcontent
    refine .obj ?_
    simp [hcontent, Json.Exact.str]
  cases value with
  | string s => exact htyped (.str s)
  | integer i => exact htyped (.int i.le_toInt (by have := i.toInt_lt; omega))
  | float x => cases hfloat
  | duration span =>
    obtain ⟨hlow, hhigh⟩ := writable_duration_iff.1 h
    exact htyped (.int hlow (Int.lt_of_le_of_lt hhigh (by decide)))
  | boolean b => exact htyped (.bool b)
  | dateTime t => exact htyped (.str t.text)

theorem int64?_toInt (i : Int64) : int64? (.int i.toInt) = some i := by
  rw [int64?, if_pos ⟨i.minValue_le_toInt, i.toInt_le⟩, Int64.ofInt_toInt]

theorem int64?_nanos {span : Span} (h : Writable (.duration span)) :
    (int64? (.int span.nanos)).map Span.ofInt64 = some span := by
  have hfits := writable_duration_iff.1 h
  have hnanos : (Int64.ofInt span.nanos).toInt = span.nanos :=
    Int64.toInt_ofInt_of_le hfits.1 (Int.lt_of_le_of_lt hfits.2 (by decide))
  rw [int64?, if_pos hfits, Option.map_some, Option.some.injEq]
  cases span
  rw [Span.ofInt64, Span.mk.injEq]
  exact hnanos

theorem ofJson?_json (rules : Rules) {value : Literal} (h : value.Portable) :
    ofJson? rules value.json = some value := by
  obtain ⟨h, -⟩ := h
  have htyped : ∀ (word : String) (content : Json), word ∈ words →
      tagAndContent rules words "type" "value" (typed word content) = some (word, some content) :=
    fun word content hword => tagAndContent_pair hword (by decide)
  cases value with
  | string s =>
    rw [ofJson?, json, htyped _ _ (by decide)]
    rfl
  | integer i =>
    rw [ofJson?, json, htyped _ _ (by decide)]
    simp [int64?_toInt]
  | float x =>
    rw [ofJson?, json, htyped _ _ (by decide)]
    rfl
  | duration span =>
    rw [ofJson?, json, htyped _ _ (by decide)]
    obtain ⟨nanos, hnanos, rfl⟩ := Option.map_eq_some_iff.1 (int64?_nanos h)
    simp [hnanos]
  | boolean b =>
    rw [ofJson?, json, htyped _ _ (by decide)]
    rfl
  | dateTime t =>
    rw [ofJson?, json, htyped _ _ (by decide)]
    simp [string?, Instant.read?_text]

end Literal

/-! ### Reading and writing parts -/

/-- A value that was read from JSON of some depth: written again it goes no deeper, and all of its
literals can be written. -/
structure Fits (depth : Nat) (json : Json) (constants : List Literal) : Prop where
  depth_le : json.depth ≤ depth
  writable : ∀ value ∈ constants, value.Writable

section Readers

variable {α : Type} {value? : Json → Option α} {json : α → Json} {constants : α → List Literal}

variable (value? json constants) in
/-- Whatever a reader takes from JSON fits into what it was taken from. -/
def ReadsFitting : Prop :=
  ∀ (spelled : Json) (x : α), value? spelled = some x → Fits spelled.depth (json x) (constants x)

theorem ReadsFitting.list (h : ReadsFitting value? json constants) :
    ReadsFitting (list? value?) (fun xs => .arr (xs.map json)) (·.flatMap constants) := by
  intro spelled xs hread
  cases spelled with
  | arr items =>
    have hitem : ∀ x ∈ xs, ∃ item ∈ items, value? item = some x :=
      fun x hx => Json.exists_of_mem_mapM hread hx
    constructor
    · rw [Json.depth, Json.depth, Nat.add_le_add_iff_right, Json.itemsDepth_le_iff]
      simp only [List.forall_mem_map]
      intro x hx
      obtain ⟨item, hmem, hread⟩ := hitem x hx
      exact (h item x hread).depth_le.trans (Json.itemsDepth_le_iff.1 le_rfl item hmem)
    · intro v hv
      obtain ⟨x, hx, hv⟩ := List.mem_flatMap.1 hv
      obtain ⟨item, -, hread⟩ := hitem x hx
      exact (h item x hread).writable v hv
  | _ => cases hread

theorem list?_map {xs : List α} (h : ∀ value ∈ xs.flatMap constants, value.Portable)
    (hitem : ∀ x, (∀ value ∈ constants x, value.Portable) → value? (json x) = some x) :
    list? value? (.arr (xs.map json)) = some xs := by
  refine Json.mapM_map_eq_some fun x hx => hitem x fun value hvalue => ?_
  exact h value (List.mem_flatMap.2 ⟨x, hx, hvalue⟩)

theorem exact_map {xs : List α} (h : ∀ value ∈ xs.flatMap constants, value.Portable)
    (hitem : ∀ x, (∀ value ∈ constants x, value.Portable) → (json x).Exact) :
    Json.Exact (.arr (xs.map json)) := by
  refine .arr (List.forall_mem_map.2 fun x hx => hitem x fun value hvalue => ?_)
  exact h value (List.mem_flatMap.2 ⟨x, hx, hvalue⟩)

/-- A part of a record lies inside the record. -/
theorem ReadsFitting.part (h : ReadsFitting value? json constants) {whole : Json}
    {values : List (Option Json)} (hinside : Inside values whole) {field : Option Json}
    (hfield : field ∈ values) {x : α} (hread : required value? field = some x) :
    (json x).depth < whole.depth ∧ ∀ v ∈ constants x, v.Writable := by
  obtain ⟨spelled, rfl, hread⟩ := Option.bind_eq_some_iff.1 hread
  have hfits := h spelled x hread
  exact ⟨hfits.depth_le.trans_lt (hinside spelled hfield), hfits.writable⟩

theorem ReadsFitting.default_part (h : ReadsFitting value? json constants) {whole : Json}
    {values : List (Option Json)} (hinside : Inside values whole) (default : α)
    (hdefault : (json default).depth < whole.depth) (hnone : constants default = [])
    {field : Option Json} (hfield : field ∈ values) {x : α}
    (hread : defaulted default value? field = some x) :
    (json x).depth < whole.depth ∧ ∀ v ∈ constants x, v.Writable := by
  cases field with
  | none =>
    obtain rfl := Option.some.inj hread
    exact ⟨hdefault, by simp [hnone]⟩
  | some spelled => exact h.part hinside hfield hread

theorem readsFitting_string : ReadsFitting string? .str fun _ => [] := by
  intro spelled s _
  exact ⟨Nat.zero_le _, List.forall_mem_nil _⟩

end Readers

theorem Literal.readsFitting (rules : Rules) :
    ReadsFitting (ofJson? rules) json fun value => [value] := by
  intro spelled value h
  refine ⟨?_, List.forall_mem_singleton.2 (writable_of_ofJson? h)⟩
  rw [depth_json]
  exact depth_pos_of_ofJson? h

/-! ### Expressions -/

theorem BinaryOp.ofJson?_word (rules : Rules) (op : BinaryOp) :
    ofJson? rules (.str op.word) = some op := by
  cases op <;> rfl

namespace Expr

theorem jsons_eq (es : List Expr) : jsons es = es.map json := by
  induction es with
  | nil => rfl
  | cons e es ih => rw [jsons, ih, List.map_cons]

theorem readsFitting_decode? (fuel : Nat) (rules : Rules) :
    ReadsFitting (decode? fuel rules) json constants := by
  induction fuel generalizing rules with
  | zero =>
    intro spelled e h
    simp [decode?] at h
  | succ fuel ih =>
    intro spelled e h
    simp only [decode?, Option.bind_eq_bind, Option.bind_eq_some_iff] at h
    obtain ⟨⟨kind, values⟩, htagged, h⟩ := h
    have hinside := inside_of_tagged htagged
    have hpos := depth_pos_of_tagged htagged
    dsimp only at h
    split at h
    · obtain ⟨name, -, rfl⟩ := Option.map_eq_some_iff.1 h
      exact ⟨depth_obj_le hpos (by simp [depth_str, hpos]), by simp [constants_member]⟩
    · obtain ⟨value, hread, rfl⟩ := Option.map_eq_some_iff.1 h
      have hvalue := (Literal.readsFitting .inCase).part hinside (by simp) hread
      refine ⟨depth_obj_le hpos (by simp [depth_str, hpos, hvalue.1]), ?_⟩
      simpa [constants_constant] using hvalue.2
    · simp only [Option.bind_eq_some_iff] at h
      obtain ⟨op, -, left, hleft, right, hright, h⟩ := h
      obtain rfl := Option.some.inj h
      have hleft := (ih .inCase).part hinside (by simp) hleft
      have hright := (ih .inCase).part hinside (by simp) hright
      refine ⟨depth_obj_le hpos (by simp [depth_str, hpos, hleft.1, hright.1]), ?_⟩
      rw [constants_binary]
      exact List.forall_mem_append.2 ⟨hleft.2, hright.2⟩
    · obtain ⟨operand, hread, rfl⟩ := Option.map_eq_some_iff.1 h
      have hoperand := (ih .inCase).part hinside (by simp) hread
      exact ⟨depth_obj_le hpos (by simp [depth_str, hpos, hoperand.1]), hoperand.2⟩
    · obtain ⟨operand, hread, rfl⟩ := Option.map_eq_some_iff.1 h
      have hoperand := (ih .inCase).part hinside (by simp) hread
      exact ⟨depth_obj_le hpos (by simp [depth_str, hpos, hoperand.1]), hoperand.2⟩
    · simp only [Option.bind_eq_some_iff] at h
      obtain ⟨method, -, args, hargs, h⟩ := h
      obtain rfl := Option.some.inj h
      have hargs := (ih .inCase).list.part hinside (by simp) hargs
      rw [← jsons_eq] at hargs
      refine ⟨depth_obj_le hpos (by simp [depth_str, hpos, hargs.1]), ?_⟩
      rw [constants_call]
      exact hargs.2
    · simp only [Option.bind_eq_some_iff] at h
      obtain ⟨test, htest, ifTrue, htrue, ifFalse, hfalse, h⟩ := h
      obtain rfl := Option.some.inj h
      have htest := (ih .inCase).part hinside (by simp) htest
      have htrue := (ih .inCase).part hinside (by simp) htrue
      have hfalse := (ih .inCase).part hinside (by simp) hfalse
      refine ⟨depth_obj_le hpos (by simp [depth_str, hpos, htest.1, htrue.1, hfalse.1]), ?_⟩
      rw [constants_conditional]
      exact List.forall_mem_append.2 ⟨List.forall_mem_append.2 ⟨htest.2, htrue.2⟩, hfalse.2⟩
    · cases h

theorem readsFitting (rules : Rules) : ReadsFitting (ofJson? rules) json constants :=
  fun spelled e h => readsFitting_decode? _ rules spelled e h

theorem decode?_json {fuel : Nat} {e : Expr} (hdepth : e.json.depth < fuel)
    (h : ∀ value ∈ e.constants, value.Portable) : decode? fuel .inCase e.json = some e := by
  -- Every operand is written one level deeper than the expression, so the fuel left is enough.
  induction fuel generalizing e with
  | zero => omega
  | succ fuel ih =>
    cases e with
    | member name =>
      have hread : tagged .inCase "kind" cases (member name).json
          = some ("member", [some (.str name)]) :=
        tagged_zip ["name"] [.str name] rfl rfl (by decide) nofun
      rw [decode?, hread]
      rfl
    | constant value =>
      have hread : tagged .inCase "kind" cases (constant value).json
          = some ("constant", [some value.json]) :=
        tagged_zip ["value"] [value.json] rfl rfl (by decide) nofun
      have hvalue := Literal.ofJson?_json .inCase (h value (by simp [constants_constant]))
      rw [decode?, hread]
      simp [required, hvalue]
    | binary op left right =>
      have hread : tagged .inCase "kind" cases (binary op left right).json
          = some ("binary", [some (.str op.word), some left.json, some right.json]) :=
        tagged_zip ["op", "left", "right"] [.str op.word, left.json, right.json] rfl rfl (by decide)
          nofun
      simp only [json, Json.depth, Json.fieldsDepth] at hdepth
      rw [constants_binary, List.forall_mem_append] at h
      have hleft := ih (e := left) (by omega) h.1
      have hright := ih (e := right) (by omega) h.2
      rw [decode?, hread]
      simp [required, BinaryOp.ofJson?_word, hleft, hright]
    | not operand =>
      have hread : tagged .inCase "kind" cases (Expr.not operand).json
          = some ("not", [some operand.json]) :=
        tagged_zip ["operand"] [operand.json] rfl rfl (by decide) nofun
      simp only [json, Json.depth, Json.fieldsDepth] at hdepth
      have hoperand := ih (e := operand) (by omega) h
      rw [decode?, hread]
      simp [required, hoperand]
    | negate operand =>
      have hread : tagged .inCase "kind" cases (negate operand).json
          = some ("negate", [some operand.json]) :=
        tagged_zip ["operand"] [operand.json] rfl rfl (by decide) nofun
      simp only [json, Json.depth, Json.fieldsDepth] at hdepth
      have hoperand := ih (e := operand) (by omega) h
      rw [decode?, hread]
      simp [required, hoperand]
    | call method args =>
      have hread : tagged .inCase "kind" cases (call method args).json
          = some ("call", [some (.str method), some (.arr (jsons args))]) :=
        tagged_zip ["method", "args"] [.str method, .arr (jsons args)] rfl rfl (by decide) nofun
      rw [jsons_eq] at hread
      simp only [json, Json.depth, Json.fieldsDepth, jsons_eq] at hdepth
      rw [constants_call] at h
      have hargs : list? (decode? fuel .inCase) (.arr (args.map json)) = some args := by
        refine Json.mapM_map_eq_some fun arg harg => ih ?_ fun value hvalue =>
          h value (List.mem_flatMap.2 ⟨arg, harg, hvalue⟩)
        have hle := depth_lt_arr (List.mem_map_of_mem (f := json) harg)
        rw [Json.depth] at hle
        omega
      rw [decode?, hread]
      simp [required, string?, hargs]
    | conditional test ifTrue ifFalse =>
      have hread : tagged .inCase "kind" cases (conditional test ifTrue ifFalse).json
          = some ("conditional", [some test.json, some ifTrue.json, some ifFalse.json]) :=
        tagged_zip ["test", "if_true", "if_false"] [test.json, ifTrue.json, ifFalse.json] rfl rfl
          (by decide) nofun
      simp only [json, Json.depth, Json.fieldsDepth] at hdepth
      rw [constants_conditional, List.forall_mem_append, List.forall_mem_append] at h
      have htest := ih (e := test) (by omega) h.1.1
      have htrue := ih (e := ifTrue) (by omega) h.1.2
      have hfalse := ih (e := ifFalse) (by omega) h.2
      rw [decode?, hread]
      simp [required, htest, htrue, hfalse]

theorem ofJson?_json {e : Expr} (h : ∀ value ∈ e.constants, value.Portable) :
    ofJson? .inCase e.json = some e :=
  decode?_json (Nat.lt_succ_self _) h

mutual

theorem exact_json (e : Expr) (h : ∀ value ∈ e.constants, value.Portable) : e.json.Exact := by
  cases e with
  | member name => exact .obj (by simp [Json.Exact.str])
  | constant value =>
    have hvalue := (h value (by simp [constants_constant])).exact_json
    exact .obj (by simp [Json.Exact.str, hvalue])
  | binary op left right =>
    rw [constants_binary, List.forall_mem_append] at h
    exact .obj (by simp [Json.Exact.str, exact_json left h.1, exact_json right h.2])
  | not operand => exact .obj (by simp [Json.Exact.str, exact_json operand h])
  | negate operand => exact .obj (by simp [Json.Exact.str, exact_json operand h])
  | call method args =>
    rw [constants_call] at h
    exact .obj (by simp [Json.Exact.str, Json.Exact.arr (exact_jsons args h)])
  | conditional test ifTrue ifFalse =>
    rw [constants_conditional, List.forall_mem_append, List.forall_mem_append] at h
    exact .obj (by simp [Json.Exact.str, exact_json test h.1.1, exact_json ifTrue h.1.2,
      exact_json ifFalse h.2])

theorem exact_jsons (es : List Expr) (h : ∀ value ∈ es.flatMap constants, value.Portable) :
    ∀ json ∈ jsons es, json.Exact := by
  cases es with
  | nil => simp [jsons]
  | cons e es =>
    rw [List.flatMap_cons, List.forall_mem_append] at h
    rw [jsons, List.forall_mem_cons]
    exact ⟨exact_json e h.1, exact_jsons es h.2⟩

end

end Expr

end EntityFlux
