import Mathlib.Data.List.Induction
import Mathlib.Data.List.Permutation
import Mathlib.Logic.Nontrivial.Basic
import Mathlib.Order.Lattice

/-!
# Stable sorts in a row

A stable sort keeps rows that tie in the order in which it finds them. So where one sort follows
another, the second decides and the first breaks the ties of the second
(`StablySorted.followedBy`). After a chain of sorts the last one counts most and the first one
least (`Sorting.stablySorted_chain`). Where a column is sorted by more than once, only the most
significant of its sorts has an effect (`Sorting.leading`), and nothing else can be left out or
moved without a change of the order (`Sorting.leBy_eq_iff`).
-/

namespace EntityFlux

section Stability

variable {α : Type} {le le' : α → α → Bool} {rows middle sorted : List α}

/-- Any two rows can be compared, and comparisons chain. Rows may tie. -/
structure Ranking (le : α → α → Bool) : Prop where
  trans : ∀ a b c, le a b → le b c → le a c
  total : ∀ a b, le a b || le b a

theorem Ranking.refl (h : Ranking le) (a : α) : le a a := by
  simpa using h.total a a

/-- Whether the order does not tell two rows apart. -/
def tied (le : α → α → Bool) (a b : α) : Bool := le a b && le b a

/-- The rows in order, and those that tie in the order that they had. -/
structure StablySorted (le : α → α → Bool) (rows sorted : List α) : Prop where
  perm : sorted.Perm rows
  ordered : sorted.Pairwise fun a b => le a b
  stable : ∀ row, sorted.filter (tied le row) = rows.filter (tied le row)

theorem stablySorted_mergeSort (h : Ranking le) (rows : List α) :
    StablySorted le rows (rows.mergeSort le) := by
  have hperm := List.mergeSort_perm rows le
  refine ⟨hperm, List.pairwise_mergeSort h.trans h.total rows, fun row => ?_⟩
  -- rows that tie with one row tie with each other, so together they are in order already
  have hordered : (rows.filter (tied le row)).Pairwise fun a b => le a b := by
    refine List.pairwise_of_forall_mem_list fun a ha b hb => ?_
    simp only [List.mem_filter, tied, Bool.and_eq_true] at ha hb
    exact h.trans a row b ha.2.2 hb.2.1
  have hsublist := (List.sublist_mergeSort h.trans h.total hordered List.filter_sublist).filter
    (tied le row)
  rw [List.filter_filter, List.filter_congr fun a _ => Bool.and_self (tied le row a)] at hsublist
  exact (hsublist.eq_of_length (hperm.symm.filter _).length_eq).symm

/-- Compares by `le`, and by `le'` where that is a tie. -/
def breakTies (le le' : α → α → Bool) (a b : α) : Bool := le a b && (!le b a || le' a b)

theorem Ranking.breakTies (h : Ranking le) (h' : Ranking le') : Ranking (breakTies le le') := by
  refine ⟨fun a b c hab hbc => ?_, fun a b => ?_⟩
  · simp only [EntityFlux.breakTies, Bool.and_eq_true, Bool.or_eq_true, Bool.not_eq_true'] at *
    refine ⟨h.trans a b c hab.1 hbc.1, ?_⟩
    rcases hca : le c a with _ | _
    · exact .inl rfl
    · -- a cycle ties all three rows, so the ties are broken all the way
      have hba := h.trans b c a hbc.1 hca
      have hcb := h.trans c a b hca hab.1
      exact .inr (h'.trans a b c (hab.2.resolve_left (by simp [hba]))
        (hbc.2.resolve_left (by simp [hcb])))
  · have htotal := h.total a b
    have htotal' := h'.total a b
    unfold EntityFlux.breakTies
    cases hab : le a b <;> cases hba : le b a <;> simp_all

theorem tied_breakTies (a b : α) : tied (breakTies le le') a b = (tied le' a b && tied le a b) := by
  unfold tied breakTies
  cases le a b <;> cases le b a <;> cases le' a b <;> cases le' b a <;> rfl

/-- A second sort leaves its own ties as the first sort has left them. -/
theorem StablySorted.followedBy (h : StablySorted le' rows middle)
    (h' : StablySorted le middle sorted) (hle : Ranking le) :
    StablySorted (breakTies le le') rows sorted := by
  refine ⟨h'.perm.trans h.perm, ?_, fun row => ?_⟩
  · rw [List.pairwise_iff_forall_sublist]
    intro a b hab
    have hfirst : le a b := List.pairwise_iff_forall_sublist.1 h'.ordered hab
    rcases hback : le b a with _ | _
    · simp [breakTies, hfirst, hback]
    · -- both rows are among those that tie with the first, and these come as they were before
      have htied := hab.filter (tied le a)
      rw [h'.stable a] at htied
      have hbefore : [a, b].Sublist middle := by
        refine List.Sublist.trans ?_ (List.filter_sublist (p := tied le a))
        simpa [tied, hfirst, hback, hle.refl a] using htied
      have hsecond : le' a b := List.pairwise_iff_forall_sublist.1 h.ordered hbefore
      simp [breakTies, hfirst, hsecond]
  · have hfilter : ∀ items : List α, items.filter (tied (breakTies le le') row)
        = (items.filter (tied le row)).filter (tied le' row) := by
      intro items
      rw [List.filter_filter]
      exact List.filter_congr fun item _ => tied_breakTies row item
    rw [hfilter, hfilter, h'.stable, List.filter_comm, h.stable, List.filter_comm]

/-- Where two orders agree on how a pair is sorted, they agree on the pair. -/
theorem StablySorted.le_of_pair {a b : α} (h : StablySorted le [a, b] sorted)
    (h' : StablySorted le' [a, b] sorted) (hle : Ranking le) (hab : le a b) : le' a b := by
  have hsublist : [a, b].Sublist sorted := by
    rcases hback : le b a with _ | _
    · rcases List.perm_pair.1 h.perm with hsorted | hsorted
      · exact hsorted ▸ List.Sublist.refl _
      · have hordered := h.ordered
        simp [hsorted, hback] at hordered
    · have hstable := h.stable a
      simp only [tied, hle.refl a, hab, hback, Bool.and_self, List.filter_cons_of_pos,
        List.filter_nil] at hstable
      exact hstable ▸ List.filter_sublist
  exact List.pairwise_iff_forall_sublist.1 h'.ordered hsublist

/-- Two orders that sort everything alike are the same order. -/
theorem eq_of_stablySorted {sort : List α → List α} (hle : Ranking le) (hle' : Ranking le')
    (h : ∀ rows, StablySorted le rows (sort rows))
    (h' : ∀ rows, StablySorted le' rows (sort rows)) : le = le' := by
  funext a b
  rw [Bool.eq_iff_iff]
  exact ⟨(h [a, b]).le_of_pair (h' [a, b]) hle, (h' [a, b]).le_of_pair (h [a, b]) hle'⟩

end Stability

/-- A column to sort by, and the direction. -/
structure Sorting where
  column : String
  descending : Bool
deriving DecidableEq

/-- A value for every column; the values of a column are of one type. -/
abbrev Row (V : String → Type) : Type := ∀ column, V column

namespace Sorting

section Comparing

variable {V : String → Type} [∀ column, LinearOrder (V column)] {s : Sorting} {a b : Row V}

def le (s : Sorting) (a b : Row V) : Bool :=
  if s.descending then b s.column ≤ a s.column else a s.column ≤ b s.column

/-- Compares rows by the first of the sortings that tells them apart. -/
def leBy : List Sorting → Row V → Row V → Bool
  | [] => fun _ _ => true
  | s :: rest => breakTies s.le (leBy rest)

theorem ranking_le (s : Sorting) : Ranking (s.le : Row V → Row V → Bool) := by
  unfold le
  cases s.descending with
  | true =>
    refine ⟨fun a b c hab hbc => ?_, fun a b => ?_⟩
    · exact decide_eq_true (le_trans (of_decide_eq_true hbc) (of_decide_eq_true hab))
    · simpa using le_total (b s.column) (a s.column)
  | false =>
    refine ⟨fun a b c hab hbc => ?_, fun a b => ?_⟩
    · exact decide_eq_true (le_trans (of_decide_eq_true hab) (of_decide_eq_true hbc))
    · simpa using le_total (a s.column) (b s.column)

theorem ranking_leBy (sorts : List Sorting) : Ranking (leBy sorts : Row V → Row V → Bool) := by
  induction sorts with
  | nil => exact ⟨fun _ _ _ _ _ => rfl, fun _ _ => rfl⟩
  | cons s rest ih => exact (ranking_le s).breakTies ih

/-- Goes through the sortings one after the other. -/
def chain (sort : Sorting → List (Row V) → List (Row V)) (sorts : List Sorting)
    (rows : List (Row V)) : List (Row V) :=
  sorts.foldl (fun rows s => sort s rows) rows

theorem stablySorted_chain {sort : Sorting → List (Row V) → List (Row V)}
    (h : ∀ s rows, StablySorted s.le rows (sort s rows)) (sorts : List Sorting)
    (rows : List (Row V)) : StablySorted (leBy sorts.reverse) rows (chain sort sorts rows) := by
  induction sorts using List.reverseRecOn with
  | nil => exact ⟨.refl rows, List.pairwise_of_forall fun _ _ => rfl, fun _ => rfl⟩
  | append_singleton sorts s ih =>
    rw [List.reverse_concat, chain, List.foldl_concat]
    exact ih.followedBy (h s _) (ranking_le s)

/-! Rows that tie in a column are not told apart by it, whatever the direction. -/

theorem le_of_eq (h : a s.column = b s.column) : s.le a b := by
  unfold le
  cases s.descending with
  | true => exact decide_eq_true h.ge
  | false => exact decide_eq_true h.le

theorem eq_of_le_of_le (hab : s.le a b) (hba : s.le b a) : a s.column = b s.column := by
  unfold le at hab hba
  cases hs : s.descending with
  | true =>
    simp only [hs, if_true] at hab hba
    exact le_antisymm (of_decide_eq_true hba) (of_decide_eq_true hab)
  | false =>
    simp only [hs, Bool.false_eq_true, if_false] at hab hba
    exact le_antisymm (of_decide_eq_true hab) (of_decide_eq_true hba)

theorem leBy_cons_of_eq (h : a s.column = b s.column) (rest : List Sorting) :
    leBy (s :: rest) a b = leBy rest a b := by
  simp [leBy, breakTies, le_of_eq h, le_of_eq h.symm]

theorem leBy_cons_of_not_le (h : s.le a b = false) (rest : List Sorting) :
    leBy (s :: rest) a b = false := by
  simp [leBy, breakTies, h]

theorem leBy_cons_of_not_ge (hab : s.le a b) (hba : s.le b a = false) (rest : List Sorting) :
    leBy (s :: rest) a b = true := by
  simp [leBy, breakTies, hab, hba]

/-- What comes second in a column is not looked at. -/
theorem leBy_filter {column : String} (h : a column = b column) (sorts : List Sorting) :
    leBy (sorts.filter (·.column ≠ column)) a b = leBy sorts a b := by
  induction sorts with
  | nil => rfl
  | cons s rest ih =>
    by_cases hs : s.column = column
    · rw [List.filter_cons_of_neg (by simp [hs]), ih, leBy_cons_of_eq (hs ▸ h)]
    · rw [List.filter_cons_of_pos (by simp [hs]), leBy, leBy, breakTies, breakTies, ih]

end Comparing

/-- The sortings without those whose column an earlier one has. -/
def leading : List Sorting → List Sorting
  | [] => []
  | s :: rest => s :: (leading rest).filter (·.column ≠ s.column)

theorem nodup_leading (sorts : List Sorting) : ((leading sorts).map (·.column)).Nodup := by
  induction sorts with
  | nil => exact List.nodup_nil
  | cons s rest ih =>
    rw [leading, List.map_cons, List.nodup_cons]
    refine ⟨by simp, ?_⟩
    exact ih.sublist (List.filter_sublist.map _)

section Leading

variable {V : String → Type} [∀ column, LinearOrder (V column)] {s t : Sorting}
  {sorts sorts' : List Sorting} {a b : Row V}

theorem leBy_leading (sorts : List Sorting) :
    (leBy (leading sorts) : Row V → Row V → Bool) = leBy sorts := by
  induction sorts with
  | nil => rfl
  | cons s rest ih =>
    funext a b
    rw [leading]
    by_cases h : a s.column = b s.column
    · rw [leBy_cons_of_eq h, leBy_cons_of_eq h, leBy_filter h, ih]
    · rcases hab : s.le a b with _ | _
      · rw [leBy_cons_of_not_le hab, leBy_cons_of_not_le hab]
      · have hba : s.le b a = false := by
          rw [Bool.eq_false_iff]
          exact fun hba => h (eq_of_le_of_le hab hba)
        rw [leBy_cons_of_not_ge hab hba, leBy_cons_of_not_ge hab hba]

theorem leBy_update {column : String} (h : column ∉ sorts.map (·.column)) (value : V column) :
    leBy sorts a (Function.update b column value) = leBy sorts a b := by
  induction sorts with
  | nil => rfl
  | cons s rest ih =>
    rw [List.map_cons, List.mem_cons, not_or] at h
    have hs : Function.update b column value s.column = b s.column :=
      Function.update_of_ne (Ne.symm h.1) value b
    rw [leBy, breakTies, ih h.2]
    simp only [le, hs, breakTies]

/-- A row with low and high values in every column, as told. -/
def mix (low high : Row V) (isHigh : String → Bool) : Row V :=
  fun column => if isHigh column then high column else low column

theorem le_mix {low high : Row V} (h : ∀ column, low column < high column) (s : Sorting)
    (p q : String → Bool) : s.le (mix low high p) (mix low high q)
      = if s.descending then !q s.column || p s.column else !p s.column || q s.column := by
  have hlt := h s.column
  unfold le mix
  cases s.descending <;> cases p s.column <;> cases q s.column <;> simp [hlt, hlt.le]

variable [∀ column, Nontrivial (V column)]

/-- Two different sortings can be opposed on how two rows compare. -/
theorem exists_opposed (h : s ≠ t) :
    ∃ a b : Row V, s.le a b = false ∧ t.le a b ∧ t.le b a = false := by
  choose low high hlt using fun column => exists_pair_lt (V column)
  refine ⟨mix low high fun column => if column = s.column then !s.descending else t.descending,
    mix low high fun column => if column = s.column then s.descending else !t.descending, ?_⟩
  simp only [le_mix hlt, if_true]
  obtain ⟨column, descending⟩ := s
  obtain ⟨column', descending'⟩ := t
  by_cases hc : column' = column
  · subst hc
    cases descending <;> cases descending' <;> simp_all
  · cases descending <;> cases descending' <;> simp [hc]

theorem exists_not_le (s : Sorting) : ∃ a b : Row V, s.le a b = false := by
  have hne : s ≠ { s with descending := !s.descending } := by
    intro h
    simpa using congrArg Sorting.descending h
  obtain ⟨a, b, hab, -⟩ := exists_opposed (V := V) hne
  exact ⟨a, b, hab⟩

/-- Where no column is sorted by twice, all sortings and their sequence count. -/
theorem eq_of_leBy_eq (hs : (sorts.map (·.column)).Nodup) (hs' : (sorts'.map (·.column)).Nodup)
    (h : (leBy sorts : Row V → Row V → Bool) = leBy sorts') : sorts = sorts' := by
  induction sorts generalizing sorts' with
  | nil =>
    rcases sorts' with _ | ⟨t, rest'⟩
    · rfl
    · obtain ⟨a, b, hab⟩ := exists_not_le (V := V) t
      have hcontra := congrFun₂ h a b
      rw [leBy_cons_of_not_le hab] at hcontra
      exact absurd hcontra.symm Bool.false_ne_true
  | cons s rest ih =>
    rcases sorts' with _ | ⟨t, rest'⟩
    · obtain ⟨a, b, hab⟩ := exists_not_le (V := V) s
      have hcontra := congrFun₂ h a b
      rw [leBy_cons_of_not_le hab] at hcontra
      exact absurd hcontra Bool.false_ne_true
    · obtain rfl : s = t := by
        by_contra hne
        obtain ⟨a, b, hab, hab', hba'⟩ := exists_opposed (V := V) hne
        have hcontra := congrFun₂ h a b
        rw [leBy_cons_of_not_le hab, leBy_cons_of_not_ge hab' hba'] at hcontra
        exact Bool.false_ne_true hcontra
      rw [List.map_cons, List.nodup_cons] at hs hs'
      -- on rows that tie in the first column the rest decides alone
      have hrest : (leBy rest : Row V → Row V → Bool) = leBy rest' := by
        funext a b
        have htie : a s.column = Function.update b s.column (a s.column) s.column :=
          (Function.update_self s.column (a s.column) b).symm
        have hab := congrFun₂ h a (Function.update b s.column (a s.column))
        rwa [leBy_cons_of_eq htie, leBy_cons_of_eq htie, leBy_update hs.1, leBy_update hs'.1] at hab
      rw [ih hs.2 hs'.2 hrest]

/-- Two sequences of sortings compare all rows alike exactly if their leading sortings are the
same, in the same sequence. -/
theorem leBy_eq_iff (sorts sorts' : List Sorting) :
    (leBy sorts : Row V → Row V → Bool) = leBy sorts' ↔ leading sorts = leading sorts' := by
  refine ⟨fun h => ?_, fun h => ?_⟩
  · rw [← leBy_leading sorts, ← leBy_leading sorts'] at h
    exact eq_of_leBy_eq (nodup_leading sorts) (nodup_leading sorts') h
  · rw [← leBy_leading sorts, h, leBy_leading sorts']

end Leading

end Sorting

end EntityFlux
