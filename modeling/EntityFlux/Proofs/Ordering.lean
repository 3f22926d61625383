import EntityFlux.Proofs.Arguments
import EntityFlux.Proofs.StableSort

/-!
# Ordering by several keys

The sort keys of a query become one sort stage each, in the order of the keys, and each stage is
bound to the column and the direction of its key (`Query.Clean.sortings_named`). Sorts are stable,
so the stages together order by the last key first: the priority of the keys is turned round. The
order that the keys ask for comes out exactly if their leading sortings are the same from either
end (`Query.ordering_keeps_priority_iff`).
-/

namespace EntityFlux

open Flux

/-- What a sort key asks for. -/
def SortKey.sorting? (entity : Entity) (key : SortKey) : Option Sorting :=
  match key.expr with
  | .member name => (entity.role? name).map fun role => ⟨role.column, key.direction.isDescending⟩
  | _ => none

/-- What a sort stage does, with its parameters looked up. -/
def Stage.sorting? (bindings : Document) (stage : String) : Option Sorting :=
  match wordsOf stage with
  | ["sort", "columns", column, "desc", descending] =>
    match bindings.find? column, bindings.find? descending with
    | some (.string column), some (.boolean descending) => some ⟨column, descending⟩
    | _, _ => none
  | _ => none

theorem Stage.wordsOf_sort (bound : Nat) : wordsOf (Stage.sort bound)
    = ["sort", "columns", parameterName (bound + 1), "desc", parameterName (bound + 2)] := by
  have hbefore : wordsOf "sort(columns: [" = ["sort", "columns"] := by decide
  have hbetween : wordsOf "], desc: " = ["desc"] := by decide
  have hafter : wordsOf ")" = [] := by decide
  unfold Stage.sort
  simp only [String.append_assoc]
  rw [wordsOf_frame_two (by decide) (by decide) (by decide)
    (readsColumns_parameterName _).whole.closed (readsColumns_parameterName _).whole.closed,
    wordsOf_parameterName, wordsOf_parameterName, hbefore, hbetween, hafter]
  rfl

/-! ## Keys and their stages -/

/-- The sort keys, each with the number of parameters ahead of it. -/
def Query.keysAt (settings : Settings) (query : Query) : List (Nat × SortKey) :=
  (query.clausesAt settings).flatMap fun (bound, clause) =>
    offsets (fun _ => 2) bound clause.keys

section Keys

variable {settings : Settings} {entity : Entity} {query : Query}

theorem Query.map_fst_keysAt : (query.keysAt settings).map (·.1) = query.sortBounds settings := by
  rw [Query.keysAt, Query.sortBounds, List.map_flatMap]
  refine List.flatMap_congr ?_
  rintro ⟨bound, clause⟩ -
  cases clause with
  | filter predicate => rfl
  | order keys => rfl

theorem Query.map_snd_keysAt :
    (query.keysAt settings).map (·.2) = query.body.flatMap Clause.keys := by
  have hclauses : (query.clausesAt settings).map (·.2) = query.body := map_snd_offsets _ _ _
  rw [Query.keysAt, List.map_flatMap, ← hclauses, List.flatMap_map]
  exact List.flatMap_congr fun (bound, clause) _ => map_snd_offsets _ _ _

/-- The stage of a key does what the key asks for. -/
theorem Query.Clean.sorting_eq (h : query.Clean settings entity) (bucket : String) {bound : Nat}
    {key : SortKey} (hk : (bound, key) ∈ query.keysAt settings) :
    ∃ s, key.sorting? entity = some s ∧ Stage.sorting?
      { body := Progress.bindingsFrom 0 (query.literals settings entity bucket) }
      (Stage.sort bound) = some s := by
  obtain ⟨⟨start, clause⟩, hc, hk⟩ := List.mem_flatMap.1 hk
  have hclause := h.standsAt_clause bucket hc
  have hclean := h.clauses clause (mem_of_mem_offsets _ _ hc)
  cases clause with
  | filter predicate => simp [Clause.keys] at hk
  | order keys =>
    have hkeys := List.flatMap_eq_nil_iff.1 hclean
    have hkey := hclause.of_mem_offsets (fun key hk => SortKey.length_literals (hkeys key hk)) hk
    obtain ⟨name, role, he, hr⟩ := SortKey.mapped_of_clean (hkeys key (mem_of_mem_offsets _ _ hk))
    have hliterals : key.literals entity
        = [.string role.column, .boolean key.direction.isDescending] := by
      simp [SortKey.literals, he, hr]
    refine ⟨⟨role.column, key.direction.isDescending⟩, by simp [SortKey.sorting?, he, hr], ?_⟩
    have hcolumn := hkey.find? (i := 0) (by rw [hliterals]; rfl)
    have hdirection := hkey.find? (i := 1) (by rw [hliterals]; rfl)
    rw [Stage.sorting?, Stage.wordsOf_sort]
    simp only [hcolumn, hdirection, Node.ofLiteral]

theorem exists_map_some {α β : Type} {f g : α → Option β} {items : List α}
    (h : ∀ item ∈ items, ∃ y, f item = some y ∧ g item = some y) :
    ∃ ys : List β, items.map f = ys.map some ∧ items.map g = ys.map some := by
  induction items with
  | nil => exact ⟨[], rfl, rfl⟩
  | cons item items ih =>
    obtain ⟨y, hf, hg⟩ := h item List.mem_cons_self
    obtain ⟨ys, hfs, hgs⟩ := ih fun next hn => h next (List.mem_cons_of_mem item hn)
    exact ⟨y :: ys, by simp [hf, hfs], by simp [hg, hgs]⟩

/-- The sort stages do what the keys ask for, in the order of the keys. -/
theorem Query.Clean.sortings_named (h : query.Clean settings entity) (bucket : String) :
    ∃ sorts : List Sorting,
      (query.body.flatMap Clause.keys).map (SortKey.sorting? entity) = sorts.map some
      ∧ (Stage.named "sort" (query.stages settings entity)).map (Stage.sorting?
        { body := Progress.bindingsFrom 0 (query.literals settings entity bucket) })
        = sorts.map some := by
  have heach : ∀ placed ∈ query.keysAt settings, ∃ s, placed.2.sorting? entity = some s
      ∧ Stage.sorting? { body := Progress.bindingsFrom 0 (query.literals settings entity bucket) }
        (Stage.sort placed.1) = some s :=
    fun _ hk => h.sorting_eq bucket hk
  obtain ⟨sorts, hkeys, hstages⟩ := exists_map_some heach
  refine ⟨sorts, ?_, ?_⟩
  · rw [← @Query.map_snd_keysAt settings query, List.map_map, ← hkeys]
    rfl
  · rw [Query.named_sort, ← Query.map_fst_keysAt]
    simpa only [List.map_map, Function.comp_def] using hstages

end Keys

/-! ## Priority -/

section Priority

variable {V : String → Type} [∀ column, LinearOrder (V column)]
  {sort : Sorting → List (Row V) → List (Row V)}

/-- Sorts in a row order by the first of them first exactly if the leading ones are the same from
either end. -/
theorem Sorting.chain_keeps_priority_iff [∀ column, Nontrivial (V column)]
    (h : ∀ s rows, StablySorted s.le rows (sort s rows)) (sorts : List Sorting) :
    (∀ rows, StablySorted (leBy sorts) rows (chain sort sorts rows))
      ↔ leading sorts = leading sorts.reverse := by
  have hchain := stablySorted_chain h sorts
  rw [← leBy_eq_iff (V := V)]
  refine ⟨fun hkept => ?_, fun heq rows => heq ▸ hchain rows⟩
  exact eq_of_stablySorted (ranking_leBy sorts) (ranking_leBy sorts.reverse) hkept hchain

end Priority

/-- The sort stages of a lowered query are the sortings that its keys ask for, in the same order.
Run one after the other on any rows, by any stable sort, they order the rows by the last key first,
ties by the key ahead of it, and so on, and rows that tie in all keys stay as they were. That is the
order with the first key first exactly if the leading sortings are the same from either end. -/
theorem Query.ordering_keeps_priority_iff {settings : Settings} {registry : Registry}
    {bucket : String} {query : Query} {request : Request}
    (h : (query.lower settings registry bucket).2 = .ok request) :
    ∃ (entity : Entity) (sorts : List Sorting), registry.find? query.entity = some entity
      ∧ request.query = " |> ".intercalate (query.stages settings entity)
      ∧ (query.body.flatMap Clause.keys).map (SortKey.sorting? entity) = sorts.map some
      ∧ (Stage.named "sort" (query.stages settings entity)).map
        (Stage.sorting? request.bindings) = sorts.map some
      ∧ ∀ (V : String → Type) [∀ column, LinearOrder (V column)]
        (sort : Sorting → List (Row V) → List (Row V)),
        (∀ s rows, StablySorted s.le rows (sort s rows)) →
        (∀ rows, StablySorted (Sorting.leBy sorts.reverse) rows (Sorting.chain sort sorts rows))
        ∧ ((∀ column, Nontrivial (V column)) →
          ((∀ rows, StablySorted (Sorting.leBy sorts) rows (Sorting.chain sort sorts rows))
            ↔ Sorting.leading sorts = Sorting.leading sorts.reverse)) := by
  obtain ⟨entity, hl⟩ := Query.lowered_of_lower h
  obtain ⟨sorts, hkeys, hstages⟩ := (Query.Clean.of_lower hl.found h).sortings_named bucket
  rw [← Query.bindings_of_entity hl.found h] at hstages
  refine ⟨entity, sorts, hl.found, hl.text, hkeys, hstages, fun V _ sort hsort => ⟨?_, ?_⟩⟩
  · exact Sorting.stablySorted_chain hsort sorts
  · intro _
    exact Sorting.chain_keeps_priority_iff hsort sorts

/-- Merge sort is a stable sort of rows. -/
def Sorting.run {V : String → Type} [∀ column, LinearOrder (V column)] (s : Sorting)
    (rows : List (Row V)) : List (Row V) :=
  rows.mergeSort s.le

theorem Sorting.stablySorted_run {V : String → Type} [∀ column, LinearOrder (V column)]
    (s : Sorting) (rows : List (Row V)) : StablySorted s.le rows (s.run rows) :=
  stablySorted_mergeSort (Sorting.ranking_le s) rows

theorem Query.ordering_keeps_priority_iff_sample :
    ∃ request entity, (sampleQuery.lower sampleSettings sampleRegistry "b").2 = .ok request
      ∧ request.query = " |> ".intercalate (sampleQuery.stages sampleSettings entity)
      ∧ (Stage.named "sort" (sampleQuery.stages sampleSettings entity)).map
        (Stage.sorting? request.bindings) = [some ⟨"data", true⟩, some ⟨"id", false⟩]
      ∧ (∀ rows : List (Row fun _ => Nat), StablySorted
        (Sorting.leBy [⟨"id", false⟩, ⟨"data", true⟩]) rows
        (Sorting.chain Sorting.run [⟨"data", true⟩, ⟨"id", false⟩] rows))
      ∧ ¬ ∀ rows : List (Row fun _ => Nat), StablySorted
        (Sorting.leBy [⟨"data", true⟩, ⟨"id", false⟩]) rows
        (Sorting.chain Sorting.run [⟨"data", true⟩, ⟨"id", false⟩] rows) := by
  obtain ⟨request, hr⟩ := sampleQuery_lower
  obtain ⟨entity, sorts, he, htext, hkeys, hstages, hsorts⟩ :=
    Query.ordering_keeps_priority_iff hr
  obtain rfl : sorts = [⟨"data", true⟩, ⟨"id", false⟩] := by
    obtain rfl := Option.some.inj he
    refine List.map_injective_iff.2 (Option.some_injective _) (hkeys.symm.trans ?_)
    decide
  obtain ⟨hreversed, hiff⟩ := hsorts (fun _ => Nat) Sorting.run Sorting.stablySorted_run
  refine ⟨request, entity, hr, htext, hstages, hreversed, ?_⟩
  rw [hiff fun _ => inferInstance]
  decide

def pairRegistry : Registry :=
  [("S", { name := "S", members := [("A", .field "a"), ("B", .field "b")] })]

def pairQuery : Query where
  entity := "S"
  body := [.order [{ expr := .member "A" }, { expr := .member "B" }]]

/-- Ordered by `A` and then by `B`, the row with the smaller `a` comes second: its `b` is greater,
and that is looked at first. -/
theorem Query.later_key_counts_more :
    ∃ request, (pairQuery.lower {} pairRegistry "b").2 = .ok request
      ∧ (Stage.named "sort" (cutText request.query)).map (Stage.sorting? request.bindings)
        = [some ⟨"a", false⟩, some ⟨"b", false⟩]
      ∧ ∃ x y : Row fun _ => Nat, x "a" = 1 ∧ x "b" = 2 ∧ y "a" = 2 ∧ y "b" = 1
        ∧ Sorting.chain Sorting.run [⟨"a", false⟩, ⟨"b", false⟩] [x, y] = [y, x]
        ∧ ¬ StablySorted (Sorting.leBy [⟨"a", false⟩, ⟨"b", false⟩]) [x, y] [y, x] := by
  have hplain : pairRegistry.IsPlain := by decide
  obtain ⟨request, hr⟩ : ∃ request, (pairQuery.lower {} pairRegistry "b").2 = .ok request :=
    Query.lower_of_offences rfl "b"
  obtain ⟨entity, hl⟩ := Query.lowered_of_lower hr
  obtain rfl := Option.some.inj hl.found
  refine ⟨request, hr, ?_, fun column => if column = "a" then 1 else 2,
    fun column => if column = "a" then 2 else 1, rfl, rfl, rfl, rfl, ?_, ?_⟩
  · rw [hl.cut_query hplain, Query.bindings_of_entity hl.found hr]
    decide +kernel
  · simp [Sorting.chain, Sorting.run, Sorting.le, List.mergeSort,
      List.MergeSort.Internal.splitInTwo]
  · intro h
    have hordered := h.ordered
    simp [Sorting.leBy, Sorting.le, breakTies] at hordered

end EntityFlux
