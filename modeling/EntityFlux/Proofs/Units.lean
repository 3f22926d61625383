import Mathlib

/-!
# Units of time

The units of a duration form a scale in which a number of each fills the one before it. A length is
shared out along a scale from the top: as many of every unit as fit into what is left (`share`).
Less than a filling of every unit never makes up one more of the unit above (`total_below`), so
there is one way only to make up a length with every unit short of its filling (`eq_share`).
-/

namespace EntityFlux.Span

/-- A unit by its name and its length in nanoseconds, and how many of it fill the next longer one;
the longest fills none. -/
structure TimeUnit where
  name : String
  length : Nat
  filling : Option Nat
deriving DecidableEq

def scale : List TimeUnit :=
  [⟨"d", 86400000000000, none⟩, ⟨"h", 3600000000000, some 24⟩, ⟨"m", 60000000000, some 60⟩,
   ⟨"s", 1000000000, some 60⟩, ⟨"ms", 1000000, some 1000⟩, ⟨"us", 1000, some 1000⟩,
   ⟨"ns", 1, some 1000⟩]

/-- Below the bound, if there is one. -/
def Below (bound : Option Nat) (n : Nat) : Prop := ∀ k ∈ bound, n < k

theorem below_some {k n : Nat} : Below (some k) n ↔ n < k := by simp [Below]

/-- Each unit fills the one before it, and the first the bound; the last is a nanosecond. -/
def Graded : Option Nat → List TimeUnit → Prop
  | bound, [] => bound = some 1
  | bound, unit :: shorter =>
    0 < unit.length ∧ Below unit.filling 0 ∧ bound = unit.filling.map (· * unit.length)
      ∧ Graded (some unit.length) shorter

theorem graded_scale : Graded none scale := by
  simp [Graded, scale, Below]

/-- All in all, in nanoseconds. -/
def total (amounts : List (Nat × TimeUnit)) : Nat := (amounts.map fun a => a.1 * a.2.length).sum

@[simp] theorem total_nil : total [] = 0 := rfl

@[simp] theorem total_cons (n : Nat) (unit : TimeUnit) (amounts : List (Nat × TimeUnit)) :
    total ((n, unit) :: amounts) = n * unit.length + total amounts := by
  simp [total]

/-- Some of the units in their order, each at least once and short of its filling. -/
structure Proper (units : List TimeUnit) (amounts : List (Nat × TimeUnit)) : Prop where
  ordered : (amounts.map Prod.snd).Sublist units
  occurs : ∀ a ∈ amounts, 0 < a.1
  short : ∀ a ∈ amounts, Below a.2.filling a.1

/-- As many of every unit as fit into what the ones before it leave. -/
def share : List TimeUnit → Nat → List (Nat × TimeUnit)
  | [], _ => []
  | unit :: shorter, n =>
    if unit.length ≤ n then (n / unit.length, unit) :: share shorter (n % unit.length)
    else share shorter n

/-- What is left when all units have been gone through. -/
def leftover : List TimeUnit → Nat → Nat
  | [], n => n
  | unit :: shorter, n => leftover shorter (n % unit.length)

theorem share_append (units more : List TimeUnit) (n : Nat) :
    share (units ++ more) n = share units n ++ share more (leftover units n) := by
  induction units generalizing n with
  | nil => rfl
  | cons unit units ih =>
    simp only [List.cons_append, share, leftover]
    split_ifs with h
    · rw [ih, List.cons_append]
    · rw [ih, Nat.mod_eq_of_lt (by omega)]

namespace Proper

variable {unit : TimeUnit} {units : List TimeUnit} {amounts : List (Nat × TimeUnit)} {n : Nat}

theorem nil : Proper [] [] := ⟨.slnil, by simp, by simp⟩

theorem eq_nil (h : Proper [] amounts) : amounts = [] := by
  simpa using List.eq_nil_of_sublist_nil h.ordered

theorem skip (h : Proper units amounts) : Proper (unit :: units) amounts :=
  ⟨h.ordered.cons unit, h.occurs, h.short⟩

theorem cons (h : Proper units amounts) (hn : 0 < n) (hshort : Below unit.filling n) :
    Proper (unit :: units) ((n, unit) :: amounts) := by
  refine ⟨h.ordered.cons_cons unit, ?_, ?_⟩
  · simpa [hn] using h.occurs
  · simpa [hshort] using h.short

/-- Proper amounts start with the first unit, or do without it. -/
theorem front (h : Proper (unit :: units) amounts) :
    Proper units amounts ∨ ∃ n rest, amounts = (n, unit) :: rest ∧ 0 < n
      ∧ Below unit.filling n ∧ Proper units rest := by
  obtain ⟨hordered, hoccurs, hshort⟩ := h
  rcases List.sublist_cons_iff.1 hordered with hskip | ⟨others, htake, hothers⟩
  · exact .inl ⟨hskip, hoccurs, hshort⟩
  · obtain ⟨⟨n, unit'⟩, rest, rfl, rfl, rfl⟩ := List.map_eq_cons_iff.1 htake
    obtain ⟨hn, hoccurs⟩ := List.forall_mem_cons.1 hoccurs
    obtain ⟨hfirst, hshort⟩ := List.forall_mem_cons.1 hshort
    exact .inr ⟨n, rest, rfl, hn, hfirst, hothers, hoccurs, hshort⟩

end Proper

section Graded

variable {bound : Option Nat} {units : List TimeUnit} {amounts : List (Nat × TimeUnit)} {n : Nat}

/-- Amounts short of every filling do not make up the bound. -/
theorem total_below (hgraded : Graded bound units) (h : Proper units amounts) :
    Below bound (total amounts) := by
  induction units generalizing bound amounts with
  | nil =>
    obtain rfl : bound = some 1 := hgraded
    rw [h.eq_nil]
    exact below_some.2 Nat.one_pos
  | cons unit units ih =>
    obtain ⟨-, hfilling, rfl, hgraded⟩ := hgraded
    intro k hk
    obtain ⟨filling, hf, rfl⟩ := Option.map_eq_some_iff.1 hk
    rcases h.front with h | ⟨n, rest, rfl, -, hn, hrest⟩
    · have hlength := below_some.1 (ih hgraded h)
      exact hlength.trans_le (Nat.le_mul_of_pos_left _ (hfilling _ hf))
    · have hlength := below_some.1 (ih hgraded hrest)
      calc total ((n, unit) :: rest)
          = n * unit.length + total rest := total_cons n unit rest
        _ < n * unit.length + unit.length := by omega
        _ = (n + 1) * unit.length := by rw [Nat.succ_mul]
        _ ≤ filling * unit.length := Nat.mul_le_mul_right _ (hn _ hf)

/-- Along a graded scale a length below the bound is shared out, and nothing is left of it. -/
theorem share_proper (hgraded : Graded bound units) (hn : Below bound n) :
    Proper units (share units n) ∧ total (share units n) = n := by
  induction units generalizing bound n with
  | nil =>
    obtain rfl : bound = some 1 := hgraded
    have hzero : n = 0 := by
      have hlt := below_some.1 hn
      omega
    exact ⟨.nil, hzero.symm⟩
  | cons unit units ih =>
    obtain ⟨hpos, -, rfl, hgraded⟩ := hgraded
    simp only [share]
    split_ifs with hfits
    · obtain ⟨hproper, htotal⟩ := ih hgraded (below_some.2 (Nat.mod_lt n hpos))
      refine ⟨hproper.cons (Nat.div_pos hfits hpos) fun k hk => ?_, ?_⟩
      · exact (Nat.div_lt_iff_lt_mul hpos).2 (hn _ (Option.mem_map_of_mem _ hk))
      · rw [total_cons, htotal, Nat.div_add_mod']
    · obtain ⟨hproper, htotal⟩ := ih hgraded (below_some.2 (Nat.lt_of_not_le hfits))
      exact ⟨hproper.skip, htotal⟩

/-- Proper amounts are what their total is shared out into. -/
theorem eq_share (hgraded : Graded bound units) (h : Proper units amounts) :
    amounts = share units (total amounts) := by
  induction units generalizing bound amounts with
  | nil => exact h.eq_nil
  | cons unit units ih =>
    obtain ⟨hpos, -, -, hgraded⟩ := hgraded
    rcases h.front with h | ⟨n, rest, rfl, hn, -, hrest⟩
    · have hlength := below_some.1 (total_below hgraded h)
      rw [share, if_neg (by omega)]
      exact ih hgraded h
    · have hlength := below_some.1 (total_below hgraded hrest)
      have hfits : unit.length ≤ n * unit.length := Nat.le_mul_of_pos_left _ hn
      have hdiv : (n * unit.length + total rest) / unit.length = n := by
        rw [Nat.mul_comm, Nat.mul_add_div hpos, Nat.div_eq_of_lt hlength, Nat.add_zero]
      have hmod : (n * unit.length + total rest) % unit.length = total rest := by
        rw [Nat.mul_comm, Nat.mul_add_mod, Nat.mod_eq_of_lt hlength]
      rw [total_cons, share, if_pos (by omega), hdiv, hmod, ← ih hgraded hrest]

end Graded

end EntityFlux.Span
