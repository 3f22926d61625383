import EntityFlux.Proofs.Arguments
import EntityFlux.Proofs.Renaming

/-!
# Clauses that commute

A filter next to an order, and a take next to a skip, can change places: the stages stay where they
are, and only the parameters of the two are numbered the other way round. That renumbering exchanges
two neighbouring blocks of positions (`exchange`). It turns the text of the one query into that of
the other, and leads every parameter to the same literal in both documents.
-/

namespace EntityFlux

open Flux

/-- A filter and an order, in either sequence. -/
inductive Clause.Independent : Clause → Clause → Prop
  | filterOrder (predicate : Expr) (keys : List SortKey) :
    Independent (.filter predicate) (.order keys)
  | orderFilter (keys : List SortKey) (predicate : Expr) :
    Independent (.order keys) (.filter predicate)

/-- A take and a skip, in either sequence. -/
inductive ResultOperator.Independent : ResultOperator → ResultOperator → Prop
  | takeSkip (n m : Expr) : Independent (.take n) (.skip m)
  | skipTake (n m : Expr) : Independent (.skip n) (.take m)

/-- Two neighbours of different kinds have changed places, and nothing else has. -/
inductive Query.Swapped : Query → Query → Prop
  | clauses (query : Query) (before after : List Clause) {a b : Clause} (h : a.Independent b) :
    Swapped { query with body := before ++ a :: b :: after }
      { query with body := before ++ b :: a :: after }
  | operators (query : Query) (before after : List ResultOperator) {a b : ResultOperator}
      (h : a.Independent b) :
    Swapped { query with operators := before ++ a :: b :: after }
      { query with operators := before ++ b :: a :: after }

/-! ## Exchanging blocks -/

/-- Exchanges the `first` positions behind `start` with the `second` positions that follow them. -/
def exchange (start first second position : Nat) : Nat :=
  if position ≤ start then position
  else if position ≤ start + first then position + second
  else if position ≤ start + first + second then position - first
  else position

section Exchange

variable {start first second width bound n : Nat}

theorem exchange_exchange (start first second position : Nat) :
    exchange start second first (exchange start first second position) = position := by
  unfold exchange
  split_ifs <;> omega

theorem exchange_mem_Icc (h : start + first + second ≤ n) {position : Nat}
    (hp : position ∈ Set.Icc 1 n) : exchange start first second position ∈ Set.Icc 1 n := by
  simp only [Set.mem_Icc] at hp ⊢
  unfold exchange
  split_ifs <;> omega

theorem bijOn_exchange (h : start + first + second ≤ n) :
    Set.BijOn (exchange start first second) (Set.Icc 1 n) (Set.Icc 1 n) := by
  have hback : start + second + first ≤ n := by omega
  have hinverse : Set.InvOn (exchange start second first) (exchange start first second)
      (Set.Icc 1 n) (Set.Icc 1 n) :=
    ⟨fun position _ => exchange_exchange start first second position,
      fun position _ => exchange_exchange start second first position⟩
  exact hinverse.bijOn (fun _ hp => exchange_mem_Icc h hp) (fun _ hp => exchange_mem_Icc hback hp)

theorem carries_exchange_ahead (h : bound + width ≤ start) :
    Carries (exchange start first second) width bound bound := by
  intro i hi
  rw [exchange, if_pos (by omega)]

theorem carries_exchange_first :
    Carries (exchange start first second) first start (start + second) := by
  intro i hi
  rw [exchange, if_neg (by omega), if_pos (by omega)]
  omega

theorem carries_exchange_second :
    Carries (exchange start first second) second (start + first) start := by
  intro i hi
  rw [exchange, if_neg (by omega), if_neg (by omega), if_pos (by omega)]
  omega

theorem carries_exchange_behind (h : start + first + second ≤ bound) :
    Carries (exchange start first second) width bound bound := by
  intro i hi
  rw [exchange, if_neg (by omega), if_neg (by omega), if_neg (by omega)]

/-- Where two blocks of a list have changed places, what stood at a position stands at the position
that it was exchanged for. -/
theorem getElem?_exchange {α : Type} (ahead x y behind : List α) {position : Nat}
    (h : 1 ≤ position) :
    (ahead ++ (y ++ (x ++ behind)))[exchange ahead.length x.length y.length position - 1]?
      = (ahead ++ (x ++ (y ++ behind)))[position - 1]? := by
  unfold exchange
  split_ifs <;> grind

end Exchange

section Offsets

variable {α β : Type} {weight : α → Nat} {view : Nat × α → List β} {g : β → β} {σ : Nat → Nat}

/-- What is seen of an item behind some parameters is seen of it behind others, with the references
renamed, whenever its parameters are moved there. -/
def SeenAlike (σ : Nat → Nat) (weight : α → Nat) (view : Nat × α → List β) (g : β → β)
    (item : α) : Prop :=
  ∀ {bound bound' : Nat}, Carries σ (weight item) bound bound' →
    (view (bound, item)).map g = view (bound', item)

theorem flatMap_offsets_of_carries {items : List α} {start start' : Nat}
    (hview : ∀ item ∈ items, SeenAlike σ weight view g item)
    (h : Carries σ (items.map weight).sum start start') :
    ((offsets weight start items).flatMap view).map g
      = (offsets weight start' items).flatMap view := by
  induction items generalizing start start' with
  | nil => rfl
  | cons item items ih =>
    rw [List.map_cons, List.sum_cons] at h
    have hitem := hview item List.mem_cons_self h.left
    have hitems := ih (fun next hn => hview next (List.mem_cons_of_mem _ hn)) h.right
    simp only [offsets_cons, List.flatMap_cons, List.map_append, hitem, hitems]

/-- Of two neighbours only one is seen, so it does not show that they have changed places. -/
theorem flatMap_offsets_exchange {before after : List α} {a b : α} (start : Nat)
    (hview : ∀ item ∈ before ++ a :: b :: after, SeenAlike
      (exchange (start + (before.map weight).sum) (weight a) (weight b)) weight view g item)
    (hempty : (∀ bound, view (bound, a) = []) ∨ ∀ bound, view (bound, b) = []) :
    ((offsets weight start (before ++ a :: b :: after)).flatMap view).map g
      = (offsets weight start (before ++ b :: a :: after)).flatMap view := by
  rw [List.forall_mem_append, List.forall_mem_cons, List.forall_mem_cons] at hview
  obtain ⟨hseen, hseenA, hseenB, hseen'⟩ := hview
  have hbefore := flatMap_offsets_of_carries hseen
    (carries_exchange_ahead (le_refl (start + (before.map weight).sum)))
  have ha := hseenA carries_exchange_first
  have hb := hseenB carries_exchange_second
  have hafter := flatMap_offsets_of_carries hseen' (carries_exchange_behind le_rfl)
  simp only [offsets_append, offsets_cons, List.flatMap_append, List.flatMap_cons,
    List.map_append, hbefore, ha, hb]
  rw [Nat.add_right_comm _ (weight b) (weight a), hafter]
  rcases hempty with hempty | hempty
  · simp [hempty]
  · simp [hempty]

end Offsets

/-! ## Moved clauses and operators -/

section Moved

variable {σ : Nat → Nat} {settings : Settings} {entity : Entity} {bound bound' : Nat}

theorem Expr.rename_fragment {e : Expr} (hplain : ∀ column ∈ e.columns entity, IsPlain column)
    (hclean : e.offences entity = []) (hσ : Carries σ e.constants.length bound bound') :
    rename σ (e.fragment entity bound) = e.fragment entity bound' :=
  (fragment_of_ok (compile_of_carries (compile_eq_fragment hclean bound) hplain hσ)).symm

theorem Clause.seenAlike_filterTexts {clause : Clause}
    (hplain : ∀ (e : Expr), ∀ column ∈ e.columns entity, IsPlain column)
    (hclean : clause.offences entity = []) :
    SeenAlike σ Clause.width (fun (bound, clause) => clause.filterTexts entity bound) (rename σ)
      clause := by
  intro bound bound' hσ
  cases clause with
  | filter predicate =>
    simp only [Clause.filterTexts, List.map_singleton,
      Expr.rename_fragment (hplain predicate) hclean hσ]
  | order keys => rfl

theorem Clause.seenAlike_sorts (clause : Clause) :
    SeenAlike σ Clause.width (fun (bound, clause) => (clause.sortBounds bound).map Stage.sort)
      (rename σ) clause := by
  intro bound bound' hσ
  cases clause with
  | filter predicate => rfl
  | order keys =>
    have hkeys : ∀ key ∈ keys, SeenAlike σ (fun _ : SortKey => 2)
        (fun (bound, _) => [Stage.sort bound]) (rename σ) key :=
      fun key _ bound bound' hσ => congrArg (fun stage => [stage]) (Stage.rename_sort hσ)
    have hmoved := flatMap_offsets_of_carries hkeys (by simpa [Clause.width, Nat.mul_comm] using hσ)
    simpa [Clause.sortBounds, List.map_eq_flatMap, List.flatMap_assoc] using hmoved

theorem ResultOperator.seenAlike_limits {operator : ResultOperator}
    (hplain : ∀ (e : Expr), ∀ column ∈ e.columns entity, IsPlain column)
    (hclean : operator.offences settings entity = []) :
    SeenAlike σ ResultOperator.width (fun (bound, operator) => operator.limits entity bound)
      (rename σ) operator := by
  intro bound bound' hσ
  cases operator with
  | take n =>
    simp only [ResultOperator.limits, List.map_singleton,
      Expr.rename_fragment (hplain n) hclean hσ]
  | _ => rfl

theorem ResultOperator.seenAlike_skips {operator : ResultOperator}
    (hplain : ∀ (e : Expr), ∀ column ∈ e.columns entity, IsPlain column)
    (hclean : operator.offences settings entity = []) :
    SeenAlike σ ResultOperator.width (fun (bound, operator) => operator.skips entity bound)
      (rename σ) operator := by
  intro bound bound' hσ
  cases operator with
  | skip n =>
    simp only [ResultOperator.skips, List.map_singleton,
      Expr.rename_fragment (hplain n) hclean hσ]
  | _ => rfl

end Moved

/-! ## Renamed queries -/

/-- With references renamed, everything that the text of a query shows is what the text of the other
query shows. -/
structure Query.Renamed (σ : Nat → Nat) (settings : Settings) (entity : Entity)
    (query query' : Query) : Prop where
  source : Carries σ settings.sourceWidth 0 0
  filters : (query.filterTexts settings entity).map (rename σ) = query'.filterTexts settings entity
  sorts : ((query.sortBounds settings).map Stage.sort).map (rename σ)
    = (query'.sortBounds settings).map Stage.sort
  limits : (query.limits settings entity).map (rename σ) = query'.limits settings entity
  skips : (query.skips settings entity).map (rename σ) = query'.skips settings entity
  counts : query.operators.any (·.counts) = query'.operators.any (·.counts)

section Renamed

variable {σ : Nat → Nat} {settings : Settings} {registry : Registry} {query query' : Query}
  {request request' : Request} {entity : Entity}

theorem Query.Lowered.rename_stages (h : query.Lowered settings registry request entity)
    (hplain : registry.IsPlain) (hr : query.Renamed σ settings entity query') :
    (query.stages settings entity).map (rename σ) = query'.stages settings entity := by
  have hpivot : [Stage.pivot].map (rename σ) = [Stage.pivot] := by
    rw [List.map_singleton, rename_of_unreferenced (by decide +kernel)]
  have hcount : Stage.count.map (rename σ) = Stage.count := by
    have hnone : ∀ stage ∈ Stage.count, references stage = [] := by decide +kernel
    exact (List.map_congr_left fun stage hs => rename_of_unreferenced (hnone stage hs)).trans
      (List.map_id _)
  unfold Query.stages
  rw [← hr.filters, ← hr.sorts, ← hr.limits, ← hr.skips, ← hr.counts, List.getLast?_map,
    List.getLast?_map]
  simp only [List.map_append]
  rw [Stage.rename_source hr.source, Stage.rename_drop, hpivot,
    Stage.rename_filter fun text ht => (h.whole_filterTexts hplain text ht).closed,
    Stage.rename_limit
      (fun text ht => (h.whole_limits hplain text (List.mem_of_getLast? ht)).closed)
      (fun text ht => (h.whole_skips hplain text (List.mem_of_getLast? ht)).closed),
    apply_ite (List.map (rename σ)), hcount, List.map_nil]

theorem Query.Lowered.rename_query (h : query.Lowered settings registry request entity)
    (h' : query'.Lowered settings registry request' entity) (hplain : registry.IsPlain)
    (hr : query.Renamed σ settings entity query') : rename σ request.query = request'.query := by
  rw [h.text, h'.text, ← h.rename_stages hplain hr]
  exact rename_intercalate (by decide) (by decide)
    fun stage hs => (h.whole_stages hplain stage hs).closed

end Renamed

section Swapped

variable {settings : Settings} {entity : Entity}

theorem Clause.Independent.filterTexts_eq_nil {a b : Clause} (h : a.Independent b) :
    (∀ bound, a.filterTexts entity bound = []) ∨ ∀ bound, b.filterTexts entity bound = [] := by
  cases h with
  | filterOrder predicate keys => exact .inr fun _ => rfl
  | orderFilter keys predicate => exact .inl fun _ => rfl

theorem Clause.Independent.sorts_eq_nil {a b : Clause} (h : a.Independent b) :
    (∀ bound, (a.sortBounds bound).map Stage.sort = [])
      ∨ ∀ bound, (b.sortBounds bound).map Stage.sort = [] := by
  cases h with
  | filterOrder predicate keys => exact .inl fun _ => rfl
  | orderFilter keys predicate => exact .inr fun _ => rfl

theorem ResultOperator.Independent.limits_eq_nil {a b : ResultOperator} (h : a.Independent b) :
    (∀ bound, a.limits entity bound = []) ∨ ∀ bound, b.limits entity bound = [] := by
  cases h with
  | takeSkip n m => exact .inr fun _ => rfl
  | skipTake n m => exact .inl fun _ => rfl

theorem ResultOperator.Independent.skips_eq_nil {a b : ResultOperator} (h : a.Independent b) :
    (∀ bound, a.skips entity bound = []) ∨ ∀ bound, b.skips entity bound = [] := by
  cases h with
  | takeSkip n m => exact .inl fun _ => rfl
  | skipTake n m => exact .inr fun _ => rfl

theorem Query.renamed_clauses {query : Query} {before after : List Clause} {a b : Clause}
    (h : a.Independent b)
    (hplain : ∀ (e : Expr), ∀ column ∈ e.columns entity, IsPlain column)
    (hclean : Query.Clean settings entity { query with body := before ++ a :: b :: after }) :
    Query.Renamed (exchange (settings.sourceWidth + (before.map Clause.width).sum) a.width b.width)
      settings entity { query with body := before ++ a :: b :: after }
      { query with body := before ++ b :: a :: after } := by
  have hwidth : ((before ++ b :: a :: after).map Clause.width).sum
      = ((before ++ a :: b :: after).map Clause.width).sum := by
    simp only [List.map_append, List.map_cons, List.sum_append, List.sum_cons]
    omega
  have hbehind : ∀ total, Carries
      (exchange (settings.sourceWidth + (before.map Clause.width).sum) a.width b.width) total
      (settings.sourceWidth + ((before ++ a :: b :: after).map Clause.width).sum)
      (settings.sourceWidth + ((before ++ a :: b :: after).map Clause.width).sum) := by
    intro total
    refine carries_exchange_behind ?_
    simp only [List.map_append, List.map_cons, List.sum_append, List.sum_cons]
    omega
  constructor
  · exact carries_exchange_ahead (by omega)
  · exact flatMap_offsets_exchange settings.sourceWidth
      (fun clause hc => Clause.seenAlike_filterTexts hplain (hclean.clauses clause hc))
      h.filterTexts_eq_nil
  · simp only [Query.sortBounds, Query.clausesAt, List.map_flatMap (f := Stage.sort)]
    exact flatMap_offsets_exchange settings.sourceWidth
      (fun clause _ => Clause.seenAlike_sorts clause) h.sorts_eq_nil
  · simp only [Query.limits, Query.operatorsAt, hwidth]
    exact flatMap_offsets_of_carries (fun operator ho =>
      ResultOperator.seenAlike_limits hplain (hclean.operators operator ho)) (hbehind _)
  · simp only [Query.skips, Query.operatorsAt, hwidth]
    exact flatMap_offsets_of_carries (fun operator ho =>
      ResultOperator.seenAlike_skips hplain (hclean.operators operator ho)) (hbehind _)
  · rfl

theorem Query.renamed_operators {query : Query} {before after : List ResultOperator}
    {a b : ResultOperator} (h : a.Independent b)
    (hplain : ∀ (e : Expr), ∀ column ∈ e.columns entity, IsPlain column)
    (hclean : Query.Clean settings entity { query with operators := before ++ a :: b :: after }) :
    Query.Renamed
      (exchange (settings.sourceWidth + (query.body.map Clause.width).sum
        + (before.map ResultOperator.width).sum) a.width b.width)
      settings entity { query with operators := before ++ a :: b :: after }
      { query with operators := before ++ b :: a :: after } := by
  have hahead : Carries
      (exchange (settings.sourceWidth + (query.body.map Clause.width).sum
        + (before.map ResultOperator.width).sum) a.width b.width)
      (query.body.map Clause.width).sum settings.sourceWidth settings.sourceWidth :=
    carries_exchange_ahead (by omega)
  constructor
  · exact carries_exchange_ahead (by omega)
  · exact flatMap_offsets_of_carries
      (fun clause hc => Clause.seenAlike_filterTexts hplain (hclean.clauses clause hc)) hahead
  · simp only [Query.sortBounds, Query.clausesAt, List.map_flatMap (f := Stage.sort)]
    exact flatMap_offsets_of_carries (fun clause _ => Clause.seenAlike_sorts clause) hahead
  · exact flatMap_offsets_exchange _ (fun operator ho =>
      ResultOperator.seenAlike_limits hplain (hclean.operators operator ho)) h.limits_eq_nil
  · exact flatMap_offsets_exchange _ (fun operator ho =>
      ResultOperator.seenAlike_skips hplain (hclean.operators operator ho)) h.skips_eq_nil
  · simp only [List.any_append, List.any_cons, Bool.or_left_comm]

/-! ## Exchanged literals -/

/-- Two neighbouring blocks of the one list have changed places in the other. -/
def Exchanged {α : Type} (start first second : Nat) (values values' : List α) : Prop :=
  ∃ ahead x y behind, values = ahead ++ (x ++ (y ++ behind))
    ∧ values' = ahead ++ (y ++ (x ++ behind))
    ∧ ahead.length = start ∧ x.length = first ∧ y.length = second

section Documents

variable {start first second : Nat} {values values' : List Literal}

theorem Exchanged.length (h : Exchanged start first second values values') :
    values'.length = values.length ∧ start + first + second ≤ values.length := by
  obtain ⟨ahead, x, y, behind, rfl, rfl, rfl, rfl, rfl⟩ := h
  simp only [List.length_append]
  omega

/-- A parameter leads to the same value as the one that it is exchanged for. -/
theorem Exchanged.find? (h : Exchanged start first second values values') {i : Nat}
    (hi : i ∈ Set.Icc 1 values.length) : ∃ node,
      Document.find? { body := Progress.bindingsFrom 0 values } (parameterName i) = some node
        ∧ Document.find? { body := Progress.bindingsFrom 0 values' }
          (parameterName (exchange start first second i)) = some node := by
  obtain ⟨hone, hle⟩ := Set.mem_Icc.1 hi
  have hmoved := (Set.mem_Icc.1 (exchange_mem_Icc h.length.2 hi)).1
  obtain ⟨ahead, x, y, behind, rfl, rfl, rfl, rfl, rfl⟩ := h
  have hvalue := getElem?_exchange ahead x y behind hone
  obtain ⟨value, hv⟩ : ∃ value, (ahead ++ (x ++ (y ++ behind)))[i - 1]? = some value :=
    ⟨_, List.getElem?_eq_getElem (by omega)⟩
  rw [hv] at hvalue
  -- positions count from 1, and the lists of values from 0
  rw [← Nat.sub_add_cancel hone, Progress.find?_bindingsFrom, hv, Nat.sub_add_cancel hone,
    ← Nat.sub_add_cancel hmoved, Progress.find?_bindingsFrom, hvalue]
  exact ⟨_, rfl, rfl⟩

end Documents

theorem Query.exchanged_clauses {query : Query} {before after : List Clause} {a b : Clause}
    (hclean : Query.Clean settings entity { query with body := before ++ a :: b :: after })
    (bucket : String) :
    Exchanged (settings.sourceWidth + (before.map Clause.width).sum) a.width b.width
      (Query.literals settings entity bucket { query with body := before ++ a :: b :: after })
      (Query.literals settings entity bucket { query with body := before ++ b :: a :: after }) := by
  have hclauses := hclean.clauses
  rw [List.forall_mem_append, List.forall_mem_cons, List.forall_mem_cons] at hclauses
  obtain ⟨hbefore, ha, hb, -⟩ := hclauses
  refine ⟨sourceLiterals settings bucket ++ before.flatMap (Clause.literals entity),
    a.literals entity, b.literals entity, after.flatMap (Clause.literals entity)
      ++ query.operators.flatMap ResultOperator.literals, ?_, ?_, ?_, ?_, ?_⟩
  · simp [Query.literals]
  · simp [Query.literals]
  · rw [List.length_append, length_sourceLiterals, Clause.length_flatMap_literals hbefore]
  · exact Clause.length_literals ha
  · exact Clause.length_literals hb

theorem Query.exchanged_operators {query : Query} {before after : List ResultOperator}
    {a b : ResultOperator}
    (hclean : Query.Clean settings entity { query with operators := before ++ a :: b :: after })
    (bucket : String) :
    Exchanged (settings.sourceWidth + (query.body.map Clause.width).sum
        + (before.map ResultOperator.width).sum) a.width b.width
      (Query.literals settings entity bucket { query with operators := before ++ a :: b :: after })
      (Query.literals settings entity bucket
        { query with operators := before ++ b :: a :: after }) := by
  refine ⟨sourceLiterals settings bucket ++ query.body.flatMap (Clause.literals entity)
      ++ before.flatMap ResultOperator.literals, a.literals, b.literals,
    after.flatMap ResultOperator.literals, ?_, ?_, ?_, rfl, rfl⟩
  · simp [Query.literals]
  · simp [Query.literals]
  · rw [List.length_append, List.length_append, length_sourceLiterals,
      Clause.length_flatMap_literals hclean.clauses, List.length_flatMap]
    rfl

/-- Neighbours that have changed places have exchanged their parameters. -/
theorem Query.Swapped.exchanged {query query' : Query} (h : query.Swapped query')
    (hplain : ∀ (e : Expr), ∀ column ∈ e.columns entity, IsPlain column)
    (hclean : query.Clean settings entity) (bucket : String) :
    ∃ start first second,
      query.Renamed (exchange start first second) settings entity query'
        ∧ Exchanged start first second (query.literals settings entity bucket)
          (query'.literals settings entity bucket) := by
  cases h with
  | clauses query before after h =>
    exact ⟨_, _, _, Query.renamed_clauses h hplain hclean, Query.exchanged_clauses hclean bucket⟩
  | operators query before after h =>
    exact ⟨_, _, _, Query.renamed_operators h hplain hclean,
      Query.exchanged_operators hclean bucket⟩

theorem Query.Swapped.entity_eq {query query' : Query} (h : query.Swapped query') :
    query'.entity = query.entity := by
  cases h <;> rfl

/-- What offends is refused in either sequence. -/
theorem Query.Swapped.offences_perm {query query' : Query} (h : query.Swapped query')
    (settings : Settings) (registry : Registry) :
    (query.offences settings registry).Perm (query'.offences settings registry) := by
  unfold Query.offences
  rw [h.entity_eq]
  rcases registry.find? query.entity with _ | entity
  · exact .refl _
  · cases h with
    | clauses query before after h =>
      exact (((List.Perm.swap _ _ after).append_left before).flatMap_right _).append_right _
    | operators query before after h =>
      exact ((((List.Perm.swap _ _ after).append_left before).flatMap_right _).append_left
        _).append_left _

end Swapped

/-- A filter next to an order, or a take next to a skip, may change places: either both queries are
lowered or none is, and a renumbering of the parameters turns the one text into the other and keeps
what every parameter is bound to. -/
theorem Query.swap_renames_parameters {registry : Registry} {query query' : Query}
    (hplain : registry.IsPlain) (hswap : query.Swapped query') (settings : Settings)
    (bucket : String) :
    ((∃ request, (query.lower settings registry bucket).2 = .ok request)
        ↔ ∃ request', (query'.lower settings registry bucket).2 = .ok request')
      ∧ ∀ request request', (query.lower settings registry bucket).2 = .ok request →
        (query'.lower settings registry bucket).2 = .ok request' →
        ∃ σ : Nat → Nat,
          Set.BijOn σ (Set.Icc 1 request.bindings.body.length)
            (Set.Icc 1 request'.bindings.body.length)
          ∧ request'.bindings.body.length = request.bindings.body.length
          ∧ rename σ request.query = request'.query
          ∧ ∀ i ∈ Set.Icc 1 request.bindings.body.length, ∃ node,
            request.bindings.find? (parameterName i) = some node
              ∧ request'.bindings.find? (parameterName (σ i)) = some node := by
  have hoffences := hswap.offences_perm settings registry
  have hdecided := query.offends_attempt settings registry bucket {}
  have hdecided' := query'.offends_attempt settings registry bucket {}
  refine ⟨?_, fun request request' h h' => ?_⟩
  · exact hdecided.ok_iff.trans (Iff.trans
      ⟨fun hnil => (hnil ▸ hoffences).symm.eq_nil, fun hnil => (hnil ▸ hoffences).eq_nil⟩
      hdecided'.ok_iff.symm)
  · obtain ⟨entity, hl⟩ := Query.lowered_of_lower h
    obtain ⟨entity', hl'⟩ := Query.lowered_of_lower h'
    obtain rfl : entity = entity' :=
      Option.some.inj (hl.found.symm.trans (hswap.entity_eq ▸ hl'.found))
    have hclean := Query.Clean.of_lower hl.found h
    obtain ⟨start, first, second, hrenamed, hexchanged⟩ :=
      hswap.exchanged (hplain.columns hl.found) hclean bucket
    have hbindings := Query.bindings_of_entity hl.found h
    have hbindings' := Query.bindings_of_entity hl'.found h'
    have hlength : request.bindings.body.length
        = (query.literals settings entity bucket).length := by
      rw [hbindings, Progress.length_bindingsFrom]
    have hlength' : request'.bindings.body.length = request.bindings.body.length := by
      rw [hlength, hbindings', Progress.length_bindingsFrom, hexchanged.length.1]
    refine ⟨exchange start first second, ?_, hlength', hl.rename_query hl' hplain hrenamed, ?_⟩
    · rw [hlength', hlength]
      exact bijOn_exchange hexchanged.length.2
    · intro i hi
      rw [hlength] at hi
      rw [hbindings, hbindings']
      exact hexchanged.find? hi

/-- The sample query with its order ahead of its first filter. -/
def swappedSampleQuery : Query :=
  { sampleQuery with
    body :=
      [.order [{ expr := .member "Value", direction := .descending }, { expr := .member "Id" }],
       .filter (.binary .orElse (.binary .equal (.member "Id") (.constant (.string "a")))
        (.binary .lessThan (.constant (.integer 1)) (.member "Value"))),
       .filter (.binary .notEqual (.member "Id") (.constant (.string "a")))] }

theorem Query.swap_renames_parameters_sample :
    sampleRegistry.IsPlain ∧ sampleQuery.Swapped swappedSampleQuery
      ∧ ∃ request request', (sampleQuery.lower sampleSettings sampleRegistry "b").2 = .ok request
        ∧ (swappedSampleQuery.lower sampleSettings sampleRegistry "b").2 = .ok request'
        ∧ ∃ σ : Nat → Nat,
          Set.BijOn σ (Set.Icc 1 request.bindings.body.length)
            (Set.Icc 1 request'.bindings.body.length)
          ∧ rename σ request.query = request'.query := by
  have hplain : sampleRegistry.IsPlain := by decide
  have hswap : sampleQuery.Swapped swappedSampleQuery :=
    .clauses sampleQuery [] [_] (.filterOrder _ _)
  obtain ⟨request, hr⟩ := sampleQuery_lower
  obtain ⟨hiff, hrename⟩ := Query.swap_renames_parameters hplain hswap sampleSettings "b"
  obtain ⟨request', hr'⟩ := hiff.1 ⟨request, hr⟩
  obtain ⟨σ, hσ, -, htext, -⟩ := hrename request request' hr hr'
  exact ⟨hplain, hswap, request, request', hr, hr', σ, hσ, htext⟩

end EntityFlux
