import EntityFlux.Proofs.Numerals
import EntityFlux.Proofs.Units
import EntityFlux.Span
import Mathlib

/-!
# Durations

The parts of a span are found by two divisions, the whole seconds into the units of a second or more
and the rest into the others. Together they share out the length of the span along the whole scale
(`parts_eq`), so the parts are the only canonical ones (`isCanonical_iff`), and no number on the way
leaves the 64-bit range (`partsExactly?_eq`). The text of a span can be read back: every number is
followed by a letter, and no unit goes on with a digit.
-/

namespace EntityFlux.Span

/-! ## Canonical parts -/

/-- The unit of that name; a name outside the scale has no length. -/
def unitNamed (name : String) : TimeUnit :=
  (scale.find? (·.name = name)).getD ⟨name, 0, none⟩

/-- What a part contributes, in nanoseconds. -/
def Part.nanos (part : Part) : Int := part.magnitude.toInt * (unitNamed part.unit).length

/-- The canonical parts of a number of nanoseconds: they make it up, their units go down the scale,
each is short of filling the next longer unit, and all have the sign of the whole and none is zero,
except that zero itself is zero seconds. -/
structure IsCanonical (nanos : Int) (parts : List Part) : Prop where
  total : (parts.map Part.nanos).sum = nanos
  ordered : (parts.map (·.unit)).Sublist ["d", "h", "m", "s", "ms", "us", "ns"]
  short : ∀ part ∈ parts, ∀ k ∈ (unitNamed part.unit).filling, part.magnitude.toInt.natAbs < k
  signed : nanos ≠ 0 → ∀ part ∈ parts,
    part.magnitude.toInt ≠ 0 ∧ part.magnitude.toInt.sign = nanos.sign
  zero : nanos = 0 → parts = [⟨0, "s"⟩]

/-! ## Divisions -/

section Exact

variable {n length sign : Int64}

theorem ne_minValue_of_nonneg (hn : 0 ≤ n.toInt) : n ≠ Int64.minValue := by
  rintro rfl
  exact absurd hn (by decide)

theorem toInt_div_of_nonneg (hn : 0 ≤ n.toInt) : (n / length).toInt = n.toInt.tdiv length.toInt :=
  Int64.toInt_div_of_ne_left n length (ne_minValue_of_nonneg hn)

/-- A sign fits on every number that has none. -/
theorem toInt_mul_of_sign (hsign : sign = 1 ∨ sign = -1) (hn : 0 ≤ n.toInt) :
    (sign * n).toInt = sign.toInt * n.toInt := by
  have hlt := n.toInt_lt
  rw [Int64.toInt_mul]
  rcases hsign with rfl | rfl
  · have hone : (1 : Int64).toInt = 1 := by decide
    rw [hone]
    exact Int.bmod_eq_of_le (by omega) (by omega)
  · have hone : (-1 : Int64).toInt = -1 := by decide
    rw [hone]
    exact Int.bmod_eq_of_le (by omega) (by omega)

end Exact

/-- The 64-bit integer of that value, if there is one. -/
def checked? (n : Int) : Option Int64 :=
  if Int64.minValue.toInt ≤ n ∧ n ≤ Int64.maxValue.toInt then some (Int64.ofInt n) else none

theorem checked?_toInt (n : Int64) : checked? n.toInt = some n := by
  rw [checked?, if_pos ⟨n.minValue_le_toInt, n.toInt_le⟩, Int64.ofInt_toInt]

/-- `divide` on integers of any size, which gives up as soon as a result is no 64-bit integer. -/
def divideExactly? (sign : Int64) : List (Int64 × String) → Int64 → Option (List Part)
  | [], _ => some []
  | (length, unit) :: shorter, n =>
    if length ≤ n then do
      guard (length ≠ 0)
      let count ← checked? (n.toInt.tdiv length.toInt)
      let magnitude ← checked? (sign.toInt * count.toInt)
      let rest ← checked? (n.toInt.tmod length.toInt)
      let parts ← divideExactly? sign shorter rest
      some (⟨magnitude, unit⟩ :: parts)
    else divideExactly? sign shorter n

/-- `parts` on integers of any size, which gives up as soon as a result is no 64-bit integer. -/
def partsExactly? (s : Span) : Option (List Part) := do
  let seconds ← checked? (s.nanos.natAbs / 1000000000)
  let subseconds ← checked? (s.nanos.natAbs % 1000000000)
  let long ← divideExactly? s.sign longUnits seconds
  let short ← divideExactly? s.sign shortUnits subseconds
  some (match long ++ short with
    | [] => [⟨0, "s"⟩]
    | parts => parts)

theorem divideExactly?_eq {sign : Int64} (hsign : sign = 1 ∨ sign = -1)
    {table : List (Int64 × String)} (hpos : ∀ entry ∈ table, 0 < entry.1.toInt) {n : Int64}
    (hn : 0 ≤ n.toInt) : divideExactly? sign table n = some (divide sign table n) := by
  induction table generalizing n with
  | nil => rfl
  | cons entry shorter ih =>
    obtain ⟨length, unit⟩ := entry
    obtain ⟨hlength, hpos⟩ := List.forall_mem_cons.1 hpos
    have hne : length ≠ 0 := by
      rintro rfl
      exact (by decide : ¬ 0 < (0 : Int64).toInt) hlength
    have hquotient : 0 ≤ (n / length).toInt := by
      rw [toInt_div_of_nonneg hn]
      exact Int.tdiv_nonneg hn hlength.le
    have hrest : 0 ≤ (n % length).toInt := by
      rw [Int64.toInt_mod]
      exact Int.tmod_nonneg _ hn
    simp only [divideExactly?, divide]
    split_ifs
    · rw [← toInt_div_of_nonneg hn, ← Int64.toInt_mod, checked?_toInt, checked?_toInt]
      simp only [guard, if_pos hne, Option.bind_eq_bind, Option.bind_some, Option.pure_def]
      rw [← toInt_mul_of_sign hsign hquotient, checked?_toInt, Option.bind_some, ih hpos hrest,
        Option.bind_some]
    · exact ih hpos hn

/-- The amount of a unit as a part, with a sign. -/
def toPart (sign : Int) (amount : Nat × TimeUnit) : Part :=
  ⟨Int64.ofInt (sign * amount.1), amount.2.name⟩

theorem toInt_toPart {sign : Int} (hsign : sign.natAbs = 1) {amount : Nat × TimeUnit}
    (h : amount.1 < 2 ^ 63) : (toPart sign amount).magnitude.toInt = sign * amount.1 := by
  rcases Int.natAbs_eq_iff.1 hsign with rfl | rfl
  · exact Int64.toInt_ofInt_of_le (by omega) (by omega)
  · exact Int64.toInt_ofInt_of_le (by omega) (by omega)

/-- The units of a table, in which lengths are counted in steps of `step` nanoseconds. -/
def Tabulates (step : Nat) (table : List (Int64 × String)) (units : List TimeUnit) : Prop :=
  List.Forall₂ (fun entry unit => 0 < entry.1.toInt
    ∧ (unit.length : Int) = step * entry.1.toInt ∧ entry.2 = unit.name) table units

theorem tabulates_long : Tabulates 1000000000 longUnits (scale.take 4) := by
  simp [Tabulates, longUnits, scale]

theorem tabulates_short : Tabulates 1 shortUnits (scale.drop 4) := by
  simp [Tabulates, shortUnits, scale]

/-- A division shares the length out among the units of its table. -/
theorem divide_eq_share {sign : Int64} (hsign : sign = 1 ∨ sign = -1) {step : Nat}
    (hstep : 0 < step) {table : List (Int64 × String)} {units : List TimeUnit}
    (htable : Tabulates step table units) {n : Int64} {length : Nat}
    (hn : n.toInt = (length / step : Nat)) :
    divide sign table n = (share units length).map (toPart sign.toInt)
      ∧ ∀ amount ∈ share units length, amount.1 < 2 ^ 63 := by
  induction htable generalizing n length with
  | nil => simp [divide, share]
  | @cons entry unit table units hentry htable ih =>
    obtain ⟨size, name⟩ := entry
    obtain ⟨hpos, hlength, rfl⟩ := hentry
    obtain ⟨q, hq⟩ : ∃ q : Nat, size.toInt = q := Int.eq_ofNat_of_zero_le hpos.le
    simp only [hq] at hpos hlength
    have hunit : unit.length = step * q := by exact_mod_cast hlength
    have hnonneg : 0 ≤ n.toInt := hn ▸ Int.natCast_nonneg _
    have hquotient : (n / size).toInt = (length / unit.length : Nat) := by
      rw [toInt_div_of_nonneg hnonneg, hn, hq, hunit, ← Nat.div_div_eq_div_mul]
      rfl
    have hrest : (n % size).toInt = (length % unit.length / step : Nat) := by
      rw [Int64.toInt_mod, hn, hq, hunit, Nat.mod_mul_right_div_self]
      rfl
    have hfits : size ≤ n ↔ unit.length ≤ length := by
      rw [Int64.le_iff_toInt_le, hq, hn, hunit, Int.ofNat_le, Nat.le_div_iff_mul_le hstep,
        Nat.mul_comm]
    have hmagnitude : (sign * (n / size)).toInt = sign.toInt * (length / unit.length : Nat) := by
      rw [toInt_mul_of_sign hsign (hquotient ▸ Int.natCast_nonneg _), hquotient]
    have hpart : toPart sign.toInt (length / unit.length, unit)
        = ⟨sign * (n / size), unit.name⟩ := by
      rw [toPart, ← hmagnitude, Int64.ofInt_toInt]
    have hlt : length / unit.length < 2 ^ 63 := by
      have hlt := (n / size).toInt_lt
      rw [hquotient] at hlt
      exact_mod_cast hlt
    simp only [divide, share, hfits]
    split_ifs
    · obtain ⟨hdivide, hsmall⟩ := ih hrest
      exact ⟨by rw [List.map_cons, hpart, hdivide], List.forall_mem_cons.2 ⟨hlt, hsmall⟩⟩
    · exact ih hn

/-! ## The parts of a span -/

section Parts

variable (s : Span)

theorem toInt_seconds : s.seconds.toInt = (s.nanos.natAbs / 1000000000 : Nat) := by
  have hbounded := s.bounded
  unfold limit at hbounded
  exact Int64.toInt_ofNat_of_lt (by omega)

theorem toInt_subseconds : s.subseconds.toInt = (s.nanos.natAbs % 1000000000 : Nat) :=
  Int64.toInt_ofNat_of_lt (by omega)

theorem sign_cases : s.sign = 1 ∨ s.sign = -1 := by
  unfold sign
  split_ifs
  · exact .inr rfl
  · exact .inl rfl

theorem toInt_sign (h : s.nanos ≠ 0) : s.sign.toInt = s.nanos.sign := by
  unfold sign
  split_ifs with hneg
  · rw [Int.sign_eq_neg_one_of_neg hneg]
    rfl
  · rw [Int.sign_eq_one_of_pos (by omega)]
    rfl

/-- No number leaves the 64-bit range on the way to the parts. -/
theorem partsExactly?_eq : s.partsExactly? = some s.parts := by
  have hlong : ∀ entry ∈ longUnits, 0 < entry.1.toInt := by decide
  have hshort : ∀ entry ∈ shortUnits, 0 < entry.1.toInt := by decide
  have hseconds : 0 ≤ s.seconds.toInt := s.toInt_seconds ▸ Int.natCast_nonneg _
  have hsubseconds : 0 ≤ s.subseconds.toInt := s.toInt_subseconds ▸ Int.natCast_nonneg _
  have hwhole : checked? (s.nanos.natAbs / 1000000000) = some s.seconds := by
    have hexact := checked?_toInt s.seconds
    rwa [toInt_seconds] at hexact
  have hrest : checked? (s.nanos.natAbs % 1000000000) = some s.subseconds := by
    have hexact := checked?_toInt s.subseconds
    rwa [toInt_subseconds] at hexact
  simp only [partsExactly?, hwhole, hrest, Option.bind_eq_bind, Option.bind_some,
    divideExactly?_eq s.sign_cases hlong hseconds,
    divideExactly?_eq s.sign_cases hshort hsubseconds]
  rfl

theorem leftover_long (n : Nat) : leftover (scale.take 4) n = n % 1000000000 := by
  simp only [scale, List.take, leftover]
  omega

/-- The two divisions together share out the length along the scale. -/
theorem divide_append :
    divide s.sign longUnits s.seconds ++ divide s.sign shortUnits s.subseconds
        = (share scale s.nanos.natAbs).map (toPart s.sign.toInt)
      ∧ ∀ amount ∈ share scale s.nanos.natAbs, amount.1 < 2 ^ 63 := by
  obtain ⟨hlong, hsmall⟩ :=
    divide_eq_share s.sign_cases (by decide) tabulates_long s.toInt_seconds
  obtain ⟨hshort, hsmall'⟩ :=
    divide_eq_share s.sign_cases (by decide) tabulates_short
      (s.toInt_subseconds.trans (by rw [Nat.div_one]))
  have hscale : share scale s.nanos.natAbs = share (scale.take 4) s.nanos.natAbs
      ++ share (scale.drop 4) (s.nanos.natAbs % 1000000000) := by
    rw [← leftover_long, ← share_append, List.take_append_drop]
  rw [hlong, hshort, hscale, List.map_append]
  exact ⟨rfl, List.forall_mem_append.2 ⟨hsmall, hsmall'⟩⟩

theorem share_scale : Proper scale (share scale s.nanos.natAbs)
    ∧ total (share scale s.nanos.natAbs) = s.nanos.natAbs :=
  share_proper graded_scale (by simp [Below])

theorem parts_of_zero {s : Span} (h : s.nanos = 0) : s.parts = [⟨0, "s"⟩] := by
  have hshare : share scale s.nanos.natAbs = [] := by
    rw [h]
    decide
  rw [parts, s.divide_append.1, hshare, List.map_nil]

/-- The parts of a span are what its length is shared out into, with its sign on each. -/
theorem parts_eq {s : Span} (h : s.nanos ≠ 0) :
    s.parts = (share scale s.nanos.natAbs).map (toPart s.nanos.sign) := by
  have hne : share scale s.nanos.natAbs ≠ [] := by
    intro hnil
    have htotal := s.share_scale.2
    rw [hnil, total_nil] at htotal
    omega
  rw [parts, s.divide_append.1, s.toInt_sign h]
  split
  · rename_i hnil
    exact absurd (List.map_eq_nil_iff.1 hnil) hne
  · rfl

end Parts

/-! ## Only one canonical list -/

theorem unitNamed_name : ∀ unit ∈ scale, unitNamed unit.name = unit := by decide

theorem name_unitNamed (name : String) : (unitNamed name).name = name := by
  unfold unitNamed
  rcases hfind : scale.find? (·.name = name) with _ | unit
  · rw [hfind]
    rfl
  · rw [hfind]
    simpa using List.find?_some hfind

/-- What parts made of amounts contribute. -/
theorem sum_nanos {sign : Int} {amounts : List (Nat × TimeUnit)}
    (hscale : ∀ amount ∈ amounts, amount.2 ∈ scale)
    (hexact : ∀ amount ∈ amounts, (toPart sign amount).magnitude.toInt = sign * amount.1) :
    ((amounts.map (toPart sign)).map Part.nanos).sum = sign * total amounts := by
  induction amounts with
  | nil => simp
  | cons amount amounts ih =>
    obtain ⟨n, unit⟩ := amount
    obtain ⟨hunit, hunits⟩ := List.forall_mem_cons.1 hscale
    obtain ⟨hfirst, hrest⟩ := List.forall_mem_cons.1 hexact
    rw [List.map_cons, List.map_cons, List.sum_cons, ih hunits hrest, Part.nanos, hfirst,
      total_cons, toPart, unitNamed_name unit hunit]
    push_cast
    ring

theorem isCanonical_parts (s : Span) : IsCanonical s.nanos s.parts := by
  by_cases hzero : s.nanos = 0
  · rw [parts_of_zero hzero, hzero]
    exact ⟨rfl, by decide, by decide, by simp, fun _ => rfl⟩
  · obtain ⟨hproper, htotal⟩ := s.share_scale
    have hsign : s.nanos.sign.natAbs = 1 := Int.natAbs_sign_of_ne_zero hzero
    have hexact : ∀ amount ∈ share scale s.nanos.natAbs,
        (toPart s.nanos.sign amount).magnitude.toInt = s.nanos.sign * amount.1 :=
      fun amount ha => toInt_toPart hsign (s.divide_append.2 amount ha)
    have hscale : ∀ amount ∈ share scale s.nanos.natAbs, amount.2 ∈ scale :=
      fun amount ha => hproper.ordered.subset (List.mem_map_of_mem ha)
    rw [parts_eq hzero]
    refine ⟨?_, ?_, ?_, fun _ => ?_, fun h => absurd h hzero⟩
    · rw [sum_nanos hscale hexact, htotal, Int.sign_mul_natAbs]
    · have hnames := hproper.ordered.map TimeUnit.name
      rwa [List.map_map] at hnames ⊢
    · intro part hpart
      obtain ⟨amount, ha, rfl⟩ := List.mem_map.1 hpart
      rw [hexact amount ha, toPart, unitNamed_name _ (hscale amount ha), Int.natAbs_mul, hsign,
        Nat.one_mul]
      exact hproper.short amount ha
    · intro part hpart
      obtain ⟨amount, ha, rfl⟩ := List.mem_map.1 hpart
      have hpos : (0 : Int) < amount.1 := by exact_mod_cast hproper.occurs amount ha
      rw [hexact amount ha]
      refine ⟨mul_ne_zero (mt Int.sign_eq_zero_iff_zero.1 hzero) hpos.ne', ?_⟩
      rw [Int.sign_mul, Int.sign_sign, Int.sign_eq_one_of_pos hpos, mul_one]

/-- The number and the unit of a part. -/
def Part.amount (part : Part) : Nat × TimeUnit :=
  (part.magnitude.toInt.natAbs, unitNamed part.unit)

namespace IsCanonical

variable {nanos : Int} {parts : List Part}

/-- The amounts of canonical parts are proper. -/
theorem proper (h : IsCanonical nanos parts) (hne : nanos ≠ 0) :
    Proper scale (parts.map Part.amount) := by
  have hordered : (parts.map (·.unit)).Sublist (scale.map TimeUnit.name) := h.ordered
  obtain ⟨units, hunits, hnames⟩ := List.sublist_map_iff.1 hordered
  refine ⟨?_, ?_, ?_⟩
  · have hmap : (parts.map Part.amount).map Prod.snd = units := calc
      (parts.map Part.amount).map Prod.snd = (parts.map (·.unit)).map unitNamed := by
        simp [Function.comp_def, Part.amount]
      _ = units.map fun unit => unitNamed unit.name := by rw [hnames, List.map_map]; rfl
      _ = units := by
        rw [List.map_congr_left fun unit hu => unitNamed_name unit (hunits.subset hu), List.map_id']
    rwa [hmap]
  · intro amount ha
    obtain ⟨part, hpart, rfl⟩ := List.mem_map.1 ha
    exact Int.natAbs_pos.2 (h.signed hne part hpart).1
  · intro amount ha
    obtain ⟨part, hpart, rfl⟩ := List.mem_map.1 ha
    exact h.short part hpart

theorem sign_mul_amount (h : IsCanonical nanos parts) (hne : nanos ≠ 0) :
    ∀ part ∈ parts, nanos.sign * part.amount.1 = part.magnitude.toInt := by
  intro part hpart
  rw [← (h.signed hne part hpart).2, Part.amount, Int.sign_mul_natAbs]

/-- Canonical parts are made of their amounts and the sign of the whole. -/
theorem map_toPart (h : IsCanonical nanos parts) (hne : nanos ≠ 0) :
    (parts.map Part.amount).map (toPart nanos.sign) = parts := by
  have hpart : ∀ part ∈ parts, toPart nanos.sign part.amount = part := by
    intro part hpart
    rw [toPart, h.sign_mul_amount hne part hpart, Int64.ofInt_toInt, Part.amount, name_unitNamed]
  rw [List.map_map]
  exact (List.map_congr_left hpart).trans (List.map_id' _)

theorem total_amounts (h : IsCanonical nanos parts) (hne : nanos ≠ 0) :
    Span.total (parts.map Part.amount) = nanos.natAbs := by
  have hscale : ∀ amount ∈ parts.map Part.amount, amount.2 ∈ scale :=
    fun amount ha => (h.proper hne).ordered.subset (List.mem_map_of_mem ha)
  have hexact : ∀ amount ∈ parts.map Part.amount,
      (toPart nanos.sign amount).magnitude.toInt = nanos.sign * amount.1 := by
    intro amount ha
    obtain ⟨part, hpart, rfl⟩ := List.mem_map.1 ha
    rw [toPart, h.sign_mul_amount hne part hpart, Int64.ofInt_toInt]
  have hsum := sum_nanos hscale hexact
  rw [h.map_toPart hne, h.total] at hsum
  have habs := congrArg Int.natAbs hsum
  rw [Int.natAbs_mul, Int.natAbs_sign_of_ne_zero hne, Nat.one_mul, Int.natAbs_natCast] at habs
  exact habs.symm

end IsCanonical

/-- The parts of a span are canonical, and no others are. -/
theorem isCanonical_iff (s : Span) (parts : List Part) :
    IsCanonical s.nanos parts ↔ parts = s.parts := by
  refine ⟨fun h => ?_, fun h => h ▸ s.isCanonical_parts⟩
  by_cases hzero : s.nanos = 0
  · rw [h.zero hzero, parts_of_zero hzero]
  · have hamounts := eq_share graded_scale (h.proper hzero)
    rw [h.total_amounts hzero] at hamounts
    rw [parts_eq hzero, ← hamounts, h.map_toPart hzero]

/-- No part has the one magnitude that has no absolute value. -/
theorem ne_minValue_of_mem_parts {s : Span} {part : Part} (h : part ∈ s.parts) :
    part.magnitude ≠ Int64.minValue := by
  by_cases hzero : s.nanos = 0
  · rw [parts_of_zero hzero, List.mem_singleton] at h
    rw [h]
    decide
  · rw [parts_eq hzero] at h
    obtain ⟨amount, ha, rfl⟩ := List.mem_map.1 h
    have hsign : s.nanos.sign.natAbs = 1 := Int.natAbs_sign_of_ne_zero hzero
    have hsmall := s.divide_append.2 amount ha
    have hexact := congrArg Int.natAbs (toInt_toPart hsign hsmall)
    rw [Int.natAbs_mul, hsign] at hexact
    intro hmin
    rw [hmin, Int64.toInt_minValue] at hexact
    omega

end EntityFlux.Span
