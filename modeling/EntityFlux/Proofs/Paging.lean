import EntityFlux.Proofs.Arguments

/-!
# Paging

Operators that take and skip rows one after the other select a window of the rows: takes narrow it
and skips move its start (`Window.apply_ofPages`). A limit stage selects a window as well, but only
the last take and the last skip of a query reach it, and the skip goes first. The two windows are
compared (`Window.apply_eq_iff`), so a lowered query selects the rows that its operators ask for
exactly if the windows are the same (`Query.paging_keeps_order_iff`).
-/

namespace EntityFlux

open Flux

/-! ## Windows -/

/-- Leaves the first `offset` rows out and keeps the next `count`, or all others if there is no
count. -/
structure Window where
  offset : Nat := 0
  count : Option Nat := none
deriving DecidableEq

/-- An operator that keeps or leaves out the first rows. -/
inductive Paging where
  | take (n : Nat)
  | skip (n : Nat)
deriving DecidableEq

def Paging.apply {α : Type} : Paging → List α → List α
  | .take n => List.take n
  | .skip n => List.drop n

/-- Applies the operators one after the other. -/
def Paging.run {α : Type} (pages : List Paging) (rows : List α) : List α :=
  pages.foldl (fun rows page => page.apply rows) rows

namespace Window

variable {α : Type} {w w' : Window}

def apply (w : Window) (rows : List α) : List α :=
  match w.count with
  | none => rows.drop w.offset
  | some n => (rows.drop w.offset).take n

/-- The window within a window that an operator selects. -/
def narrow (w : Window) : Paging → Window
  | .take n => { w with count := some (w.count.elim n (min n)) }
  | .skip n => ⟨w.offset + n, w.count.map (· - n)⟩

/-- The window that operators select one after the other. -/
def ofPages (pages : List Paging) : Window := pages.foldl narrow {}

theorem apply_narrow (w : Window) (page : Paging) (rows : List α) :
    (w.narrow page).apply rows = page.apply (w.apply rows) := by
  obtain ⟨offset, count⟩ := w
  rcases count with _ | count
  · cases page with
    | take n => rfl
    | skip n => simp [narrow, apply, Paging.apply, List.drop_drop]
  · cases page with
    | take n => simp [narrow, apply, Paging.apply, List.take_take]
    | skip n => simp [narrow, apply, Paging.apply, List.drop_take, List.drop_drop]

theorem apply_ofPages (pages : List Paging) (rows : List α) :
    (ofPages pages).apply rows = Paging.run pages rows := by
  induction pages using List.reverseRecOn with
  | nil => rfl
  | append_singleton pages page ih =>
    rw [ofPages, List.foldl_concat, ← ofPages, apply_narrow, ih, Paging.run, Paging.run,
      List.foldl_concat]

/-- The row at a position of the window is there if the count reaches it. -/
theorem getElem?_apply (w : Window) (rows : List α) (i : Nat) :
    (w.apply rows)[i]? = if ∀ n ∈ w.count, i < n then rows[w.offset + i]? else none := by
  unfold apply
  rcases w.count with _ | n
  · simp
  · simp [List.getElem?_take]

/-- The same number of rows from the same start, or no rows. -/
def Same (w w' : Window) : Prop :=
  w.count = w'.count ∧ (w.count = some 0 ∨ w.offset = w'.offset)

instance : Decidable (Same w w') := inferInstanceAs (Decidable (_ ∧ _))

theorem count_eq_of_reaches {m n : Option Nat} (h : ∀ i, (∀ k ∈ m, i < k) ↔ ∀ k ∈ n, i < k) :
    m = n := by
  rcases m with _ | m <;> rcases n with _ | n
  · rfl
  · have hn := h n
    simp at hn
  · have hm := h m
    simp at hm
  · have hm := h m
    have hn := h n
    simp only [Option.mem_def, Option.some.injEq, forall_eq'] at hm hn
    congr 1
    omega

/-- Windows select the same of any rows exactly if they are the same. -/
theorem apply_eq_iff [Nontrivial α] :
    (∀ rows : List α, w.apply rows = w'.apply rows) ↔ w.Same w' := by
  constructor
  · intro h
    obtain ⟨x, y, hxy⟩ := exists_pair_ne α
    have hrow : ∀ (rows : List α) (i : Nat), (w.apply rows)[i]? = (w'.apply rows)[i]? :=
      fun rows i => by rw [h rows]
    simp only [getElem?_apply] at hrow
    -- long lists of one row show how far the windows reach
    have hcount : w.count = w'.count := by
      refine count_eq_of_reaches fun i => ?_
      have hreach := hrow (List.replicate (w.offset + w'.offset + i + 1) x) i
      rw [List.getElem?_replicate_of_lt (by omega),
        List.getElem?_replicate_of_lt (by omega)] at hreach
      split_ifs at hreach with hw hw' hw'
      · exact iff_of_true hw hw'
      · exact iff_of_false hw hw'
    refine ⟨hcount, ?_⟩
    by_cases hzero : w.count = some 0
    · exact .inl hzero
    · -- and one row that differs shows where they start
      have hreach : ∀ n ∈ w.count, 0 < n := by
        intro n hn
        exact Nat.pos_of_ne_zero fun h0 => hzero (h0 ▸ hn)
      have hfirst := hrow ((List.replicate (w.offset + w'.offset + 1) x).set w.offset y) 0
      rw [← hcount, if_pos hreach, if_pos hreach, List.getElem?_set, List.getElem?_set] at hfirst
      right
      by_contra hne
      simp [hne, hxy.symm] at hfirst
  · rintro ⟨hcount, hoffset⟩ rows
    unfold apply
    rcases hoffset with hzero | hoffset
    · rw [← hcount, hzero]
      rfl
    · rw [← hcount, hoffset]

end Window

/-! ## Counts -/

/-- The number that an integer of Flux stands for, if it has no sign. -/
def Flux.Node.count? : Node → Option Nat
  | .integer text =>
    if text.toList ≠ [] ∧ text.toList.all Char.isDigit then some (Text.Numeral.value text.toList)
    else none
  | _ => none

/-- The number that a name is bound to. -/
def Flux.Document.count? (bindings : Document) (name : String) : Option Nat :=
  (bindings.find? name).bind Node.count?

/-- A constant that can be counted to. -/
def Expr.count? : Expr → Option Nat
  | .constant (.integer i) => if 0 ≤ i.toInt then some i.toInt.toNat else none
  | _ => none

/-- An operator that pages by a constant. -/
def ResultOperator.paging? : ResultOperator → Option Paging
  | .take n => n.count?.map .take
  | .skip n => n.count?.map .skip
  | _ => none

/-- The window of a limit stage, with its parameters looked up. -/
def Stage.window? (bindings : Document) (stage : String) : Option Window :=
  match wordsOf stage with
  | ["limit", "n", n] => (bindings.count? n).map fun n => { count := some n }
  | ["limit", "n", n, "offset", offset] =>
    (bindings.count? n).bind fun n =>
      (bindings.count? offset).map fun offset => { offset, count := some n }
  | _ => none

namespace Paging

def taken? : Paging → Option Nat
  | .take n => some n
  | .skip _ => none

def skipped? : Paging → Option Nat
  | .take _ => none
  | .skip n => some n

end Paging

/-- The window of the last skip and the last take, wherever they stand. -/
def Window.ofLast (pages : List Paging) : Window where
  offset := (pages.filterMap Paging.skipped?).getLast?.getD 0
  count := (pages.filterMap Paging.taken?).getLast?

section Counts

variable {settings : Settings} {entity : Entity} {query : Query} {bound k : Nat} {n : Expr}

theorem Flux.Node.count?_ofLiteral {i : Int64} (h : 0 ≤ i.toInt) :
    Node.count? (Node.ofLiteral (.integer i)) = some i.toInt.toNat := by
  obtain ⟨k, hk⟩ := Int.eq_ofNat_of_zero_le h
  have hdigits : ∀ c ∈ Nat.toDigits 10 k, c.isDigit :=
    fun c hc => Nat.isDigit_of_mem_toDigits (by decide) (by decide) hc
  have htext : (Text.Numeral.ofInt i.toInt).toList = Nat.toDigits 10 k := by
    rw [hk]
    simp [Text.Numeral.ofInt, Text.Numeral.ofNat]
  rw [Node.ofLiteral, Node.count?, htext,
    if_pos ⟨Nat.toDigits_ne_nil, List.all_eq_true.2 hdigits⟩, Text.Numeral.value,
    Nat.ofDigitChars_ten_toDigits, hk]
  rfl

/-- A count that can be counted to is the constant itself. -/
theorem Expr.eq_constant_of_count? (h : n.count? = some k) :
    ∃ i : Int64, n = .constant (.integer i) ∧ 0 ≤ i.toInt ∧ k = i.toInt.toNat := by
  unfold Expr.count? at h
  split at h
  · rename_i i
    split at h
    · exact ⟨i, rfl, ‹_›, (Option.some.inj h).symm⟩
    · simp at h
  · simp at h

/-- The fragment of a count is the name of its parameter, and that leads back to the count. -/
theorem Query.Clean.count?_fragment (h : query.Clean settings entity) (bucket : String)
    (hn : (bound, n) ∈ query.takesAt settings ++ query.skipsAt settings)
    (hk : n.count? = some k) :
    n.fragment entity bound = parameterName (bound + 1)
      ∧ Document.count?
        { body := Progress.bindingsFrom 0 (query.literals settings entity bucket) }
        (parameterName (bound + 1)) = some k := by
  obtain ⟨i, rfl, hi, rfl⟩ := Expr.eq_constant_of_count? hk
  obtain ⟨operator, ho, hliterals⟩ := Query.operator_of_count hn
  have hstands := h.standsAt_operator bucket ho
  rw [hliterals] at hstands
  have hfirst : (Expr.constants (.constant (.integer i)))[0]? = some (.integer i) := rfl
  have hfind := hstands.find? hfirst
  refine ⟨rfl, ?_⟩
  rw [Document.count?, ← Nat.add_zero bound, hfind, Option.bind_some, Node.count?_ofLiteral hi]

end Counts

/-! ## Limits -/

section Limits

variable {settings : Settings} {entity : Entity} {query : Query} {pages : List Paging}

theorem ResultOperator.paging_cases {operator : ResultOperator} {page : Paging}
    (h : operator.paging? = some page) :
    (∃ n k, operator = .take n ∧ n.count? = some k ∧ page = .take k)
      ∨ ∃ n k, operator = .skip n ∧ n.count? = some k ∧ page = .skip k := by
  cases operator with
  | take n =>
    obtain ⟨k, hk, rfl⟩ := Option.map_eq_some_iff.1 h
    exact .inl ⟨n, k, rfl, hk, rfl⟩
  | skip n =>
    obtain ⟨k, hk, rfl⟩ := Option.map_eq_some_iff.1 h
    exact .inr ⟨n, k, rfl, hk, rfl⟩
  | _ => simp [paging?] at h

/-- The counts of the takes and of the skips are those of the pages, in their order. -/
theorem Query.counts_of_pages (h : query.operators.map ResultOperator.paging? = pages.map some) :
    (query.takesAt settings).map (·.2.count?) = (pages.filterMap Paging.taken?).map some
      ∧ (query.skipsAt settings).map (·.2.count?)
        = (pages.filterMap Paging.skipped?).map some := by
  unfold Query.takesAt Query.skipsAt Query.operatorsAt
  generalize settings.sourceWidth + (query.body.map Clause.width).sum = start
  generalize query.operators = operators at h
  induction operators generalizing pages start with
  | nil =>
    obtain rfl : pages = [] := by simpa using h.symm
    exact ⟨rfl, rfl⟩
  | cons operator operators ih =>
    rcases pages with _ | ⟨page, pages⟩
    · simp at h
    · rw [List.map_cons, List.map_cons, List.cons.injEq] at h
      obtain ⟨htakes, hskips⟩ := ih (start + operator.width) h.2
      rw [offsets_cons, List.flatMap_cons, List.flatMap_cons, List.map_append, List.map_append,
        htakes, hskips]
      obtain ⟨n, k, rfl, hk, rfl⟩ | ⟨n, k, rfl, hk, rfl⟩ := ResultOperator.paging_cases h.1
      · simp [ResultOperator.takes, ResultOperator.skipped, List.filterMap_cons, Paging.taken?,
          Paging.skipped?, hk]
      · simp [ResultOperator.takes, ResultOperator.skipped, List.filterMap_cons, Paging.taken?,
          Paging.skipped?, hk]

/-- The last of some counts is the last that can be counted to. -/
theorem getLast?_of_counts {counts : List (Nat × Expr)} {numbers : List Nat}
    (h : counts.map (·.2.count?) = numbers.map some) {k : Nat}
    (hk : numbers.getLast? = some k) :
    ∃ bound n, counts.getLast? = some (bound, n) ∧ n.count? = some k := by
  have hlast := congrArg List.getLast? h
  rw [List.getLast?_map, List.getLast?_map, hk, Option.map_some] at hlast
  obtain ⟨⟨bound, n⟩, hn, hcount⟩ := Option.map_eq_some_iff.1 hlast
  exact ⟨bound, n, hn, hcount⟩

theorem Stage.wordsOf_limit (position : Nat) :
    wordsOf ("limit(n: " ++ parameterName position ++ ")")
      = ["limit", "n", parameterName position] := by
  have hbefore : wordsOf "limit(n: " = ["limit", "n"] := by decide
  have hafter : wordsOf ")" = [] := by decide
  rw [String.append_assoc, wordsOf_frame (by decide) (by decide)
    (readsColumns_parameterName _).whole.closed, wordsOf_parameterName, hbefore, hafter]
  rfl

theorem Stage.wordsOf_limit_offset (position position' : Nat) :
    wordsOf ("limit(n: " ++ parameterName position ++ ", offset: " ++ parameterName position'
        ++ ")")
      = ["limit", "n", parameterName position, "offset", parameterName position'] := by
  have hbefore : wordsOf "limit(n: " = ["limit", "n"] := by decide
  have hbetween : wordsOf ", offset: " = ["offset"] := by decide
  have hafter : wordsOf ")" = [] := by decide
  simp only [String.append_assoc]
  rw [wordsOf_frame_two (by decide) (by decide) (by decide)
    (readsColumns_parameterName _).whole.closed (readsColumns_parameterName _).whole.closed,
    wordsOf_parameterName, wordsOf_parameterName, hbefore, hbetween, hafter]
  rfl

/-- The limit stage shows the last take and the last skip. -/
theorem Query.Clean.window_named (hclean : query.Clean settings entity) (bucket : String)
    (h : query.operators.map ResultOperator.paging? = pages.map some)
    (htake : ∃ n, .take n ∈ pages) :
    ∃ stage, Stage.named "limit" (query.stages settings entity) = [stage]
      ∧ Stage.window?
        { body := Progress.bindingsFrom 0 (query.literals settings entity bucket) } stage
        = some (Window.ofLast pages) := by
  obtain ⟨htakes, hskips⟩ := @Query.counts_of_pages settings query pages h
  obtain ⟨k, hk⟩ : ∃ k, (pages.filterMap Paging.taken?).getLast? = some k := by
    obtain ⟨n, hn⟩ := htake
    rw [← Option.isSome_iff_exists, List.getLast?_isSome]
    exact List.ne_nil_of_mem (List.mem_filterMap.2 ⟨_, hn, rfl⟩)
  obtain ⟨bound, n, hlast, hn⟩ := getLast?_of_counts htakes hk
  obtain ⟨htext, hcount⟩ := hclean.count?_fragment bucket
    (List.mem_append_left _ (List.mem_of_getLast? hlast)) hn
  have hlimit : (query.limits settings entity).getLast? = some (parameterName (bound + 1)) := by
    rw [Query.limits_eq, List.getLast?_map, hlast]
    exact congrArg some htext
  rw [Query.named_limit, hlimit, Window.ofLast, hk]
  rcases hj : (pages.filterMap Paging.skipped?).getLast? with _ | j
  · have hnone : (query.skips settings entity).getLast? = none := by
      rw [List.getLast?_eq_none_iff] at hj ⊢
      rw [hj, List.map_nil, List.map_eq_nil_iff] at hskips
      rw [Query.skips_eq, hskips, List.map_nil]
    refine ⟨_, by rw [hnone]; rfl, ?_⟩
    rw [Stage.window?, Stage.wordsOf_limit]
    simp only [hcount]
    rfl
  · obtain ⟨bound', m, hlast', hm⟩ := getLast?_of_counts hskips hj
    obtain ⟨htext', hcount'⟩ := hclean.count?_fragment bucket
      (List.mem_append_right _ (List.mem_of_getLast? hlast')) hm
    have hskip : (query.skips settings entity).getLast? = some (parameterName (bound' + 1)) := by
      rw [Query.skips_eq, List.getLast?_map, hlast']
      exact congrArg some htext'
    refine ⟨_, by rw [hskip]; rfl, ?_⟩
    rw [Stage.window?, Stage.wordsOf_limit_offset]
    simp only [hcount, hcount']
    rfl

end Limits

/-- The limit stage of a lowered query that takes and skips by constants selects the window of its
last skip and its last take. For all rows that is what the operators select one after the other
exactly if the two windows are the same. -/
theorem Query.paging_keeps_order_iff {settings : Settings} {registry : Registry} {bucket : String}
    {query : Query} {request : Request} {pages : List Paging}
    (h : (query.lower settings registry bucket).2 = .ok request)
    (hpages : query.operators.map ResultOperator.paging? = pages.map some)
    (htake : ∃ n, .take n ∈ pages) :
    ∃ (entity : Entity) (stage : String), registry.find? query.entity = some entity
      ∧ request.query = " |> ".intercalate (query.stages settings entity)
      ∧ Stage.named "limit" (query.stages settings entity) = [stage]
      ∧ Stage.window? request.bindings stage = some (Window.ofLast pages)
      ∧ ∀ (α : Type) [Nontrivial α],
        (∀ rows : List α, (Window.ofLast pages).apply rows = Paging.run pages rows)
          ↔ (Window.ofLast pages).Same (Window.ofPages pages) := by
  obtain ⟨entity, hl⟩ := Query.lowered_of_lower h
  obtain ⟨stage, hnamed, hwindow⟩ :=
    (Query.Clean.of_lower hl.found h).window_named bucket hpages htake
  rw [← Query.bindings_of_entity hl.found h] at hwindow
  refine ⟨entity, stage, hl.found, hl.text, hnamed, hwindow, fun α _ => ?_⟩
  simp only [← Window.apply_ofPages]
  exact Window.apply_eq_iff

/-- Two pages are skipped, the first of them empty, before rows are taken. -/
def skippingQuery : Query where
  entity := "Sensor"
  operators := [.skip (.constant (.integer 0)), .skip (.constant (.integer 2)),
    .take (.constant (.integer 5))]

theorem Query.paging_keeps_order_iff_sample :
    skippingQuery.operators.map ResultOperator.paging?
        = [Paging.skip 0, .skip 2, .take 5].map some
      ∧ ∃ request entity stage, (skippingQuery.lower {} sampleRegistry "b").2 = .ok request
        ∧ request.query = " |> ".intercalate (skippingQuery.stages {} entity)
        ∧ Stage.named "limit" (skippingQuery.stages {} entity) = [stage]
        ∧ Stage.window? request.bindings stage = some ⟨2, some 5⟩
        ∧ ∀ rows : List Nat, (Window.mk 2 (some 5)).apply rows
          = Paging.run [.skip 0, .skip 2, .take 5] rows := by
  have hpages : skippingQuery.operators.map ResultOperator.paging?
      = [Paging.skip 0, .skip 2, .take 5].map some := by decide
  obtain ⟨request, hr⟩ : ∃ request, (skippingQuery.lower {} sampleRegistry "b").2 = .ok request :=
    Query.lower_of_offences rfl "b"
  obtain ⟨entity, stage, -, htext, hnamed, hwindow, hiff⟩ :=
    Query.paging_keeps_order_iff hr hpages ⟨5, by decide⟩
  exact ⟨hpages, request, entity, stage, hr, htext, hnamed, hwindow, (hiff Nat).2 (by decide)⟩

def pagedQuery : Query where
  entity := "Sensor"
  operators := [.take (.constant (.integer 10)), .skip (.constant (.integer 5))]

/-- Of ten rows five are skipped, which leaves five; but the limit skips first and keeps ten. -/
theorem Query.limit_skips_first :
    pagedQuery.operators.map ResultOperator.paging? = [Paging.take 10, .skip 5].map some
      ∧ ∃ request, (pagedQuery.lower {} sampleRegistry "b").2 = .ok request
        ∧ Stage.named "limit" (cutText request.query) = ["limit(n: p3, offset: p4)"]
        ∧ Stage.window? request.bindings "limit(n: p3, offset: p4)" = some ⟨5, some 10⟩
        ∧ (Window.mk 5 (some 10)).apply (List.range 12) = [5, 6, 7, 8, 9, 10, 11]
        ∧ Paging.run [.take 10, .skip 5] (List.range 12) = [5, 6, 7, 8, 9] := by
  have hplain : sampleRegistry.IsPlain := by decide
  obtain ⟨request, hr⟩ : ∃ request, (pagedQuery.lower {} sampleRegistry "b").2 = .ok request :=
    Query.lower_of_offences rfl "b"
  obtain ⟨entity, hl⟩ := Query.lowered_of_lower hr
  obtain rfl := Option.some.inj hl.found
  refine ⟨by decide, request, hr, ?_, ?_, by decide, by decide⟩
  · rw [hl.cut_query hplain]
    decide +kernel
  · rw [Query.bindings_of_entity hl.found hr]
    decide +kernel

end EntityFlux
