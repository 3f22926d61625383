import EntityFlux.Proofs.Durations
import EntityFlux.Proofs.Numerals

/-!
# Reading durations

The text of a duration is a sign, if any, and numbers with their units. It can be read back: a
number ends where its unit starts, and a unit where the next number does, so the longest name in
front is the one that was written (`unitName?_append`), `ms` and not `m`.
-/

namespace EntityFlux.Span

open EntityFlux.Text (Numeral.span Numeral.value Numeral.StartsApart)

/-! ## The reader -/

/-- The longest name of a unit in front, and what follows it. -/
def unitName? : List Char → Option (String × List Char)
  | 'm' :: 's' :: rest => some ("ms", rest)
  | 'u' :: 's' :: rest => some ("us", rest)
  | 'n' :: 's' :: rest => some ("ns", rest)
  | 'd' :: rest => some ("d", rest)
  | 'h' :: rest => some ("h", rest)
  | 'm' :: rest => some ("m", rest)
  | 's' :: rest => some ("s", rest)
  | _ => none

/-- A number and its unit in front, and what follows them. -/
def amount? (cs : List Char) : Option ((Nat × String) × List Char) :=
  match Numeral.span cs with
  | ([], _) => none
  | (digits, rest) =>
    (unitName? rest).map fun (unit, rest) => ((Numeral.value digits, unit), rest)

theorem length_of_unitName? {cs rest : List Char} {unit : String}
    (h : unitName? cs = some (unit, rest)) : rest.length < cs.length := by
  unfold unitName? at h
  split at h <;> cases h <;> simp

theorem length_of_amount? {cs rest : List Char} {amount : Nat × String}
    (h : amount? cs = some (amount, rest)) : rest.length < cs.length := by
  have hspan := congrArg List.length (Text.Numeral.span_append cs)
  rw [List.length_append] at hspan
  unfold amount? at h
  split at h
  · cases h
  · rename_i digits more _ heq
    obtain ⟨⟨unit, others⟩, hunit, heq'⟩ := Option.map_eq_some_iff.1 h
    have hlength := length_of_unitName? hunit
    obtain rfl : others = rest := congrArg Prod.snd heq'
    simp only [heq] at hspan
    omega

/-- Numbers with their units, one behind the other up to the end. -/
def amounts? (cs : List Char) : Option (List (Nat × String)) :=
  if cs = [] then some []
  else
    match _h : amount? cs with
    | none => none
    | some (amount, rest) => (amounts? rest).map (amount :: ·)
termination_by cs.length
decreasing_by exact length_of_amount? _h

/-- What numbers with units come to, in nanoseconds. -/
def nanosOf (amounts : List (Nat × String)) : Nat :=
  (amounts.map fun amount => amount.1 * (unitNamed amount.2).length).sum

/-- The span that a text stands for: a minus or none, then numbers with their units. -/
def read? : List Char → Option Span
  | '-' :: cs => (amounts? cs).bind fun amounts => ofNanos? (-nanosOf amounts)
  | cs => (amounts? cs).bind fun amounts => ofNanos? (nanosOf amounts)

/-! ## Reading back -/

/-- Numbers with their units as they are written. -/
def amountsText (amounts : List (Nat × String)) : List Char :=
  amounts.flatMap fun amount => Nat.toDigits 10 amount.1 ++ amount.2.toList

/-- Empty, or a digit in front. -/
def Continues (rest : List Char) : Prop := ∀ c ∈ rest.head?, c.isDigit

theorem continues_amountsText (amounts : List (Nat × String)) :
    Continues (amountsText amounts) := by
  cases amounts with
  | nil => simp [Continues, amountsText]
  | cons amount amounts =>
    intro c hc
    rw [amountsText, List.flatMap_cons, List.append_assoc] at hc
    have hne : Nat.toDigits 10 amount.1 ≠ [] := by simp
    rw [List.head?_append_of_ne_nil _ hne] at hc
    exact Text.Numeral.isDigit_of_mem_toDigits (List.mem_of_mem_head? hc)

/-- The name of a unit is taken off whole in front of a number and at the end. -/
theorem unitName?_append {unit : String} (h : unit ∈ scale.map TimeUnit.name) {rest : List Char}
    (hrest : Continues rest) : unitName? (unit.toList ++ rest) = some (unit, rest) := by
  simp only [scale, List.map_cons, List.map_nil, List.mem_cons, List.not_mem_nil, or_false] at h
  rcases h with rfl | rfl | rfl | rfl | rfl | rfl | rfl
  · rfl
  · rfl
  · cases rest with
    | nil => rfl
    | cons c rest =>
      have hc : c ≠ 's' := by
        rintro rfl
        exact absurd (hrest 's' rfl) (by decide)
      simp [unitName?, hc]
  · rfl
  · rfl
  · rfl
  · rfl

theorem startsApart_unit {unit : String} (h : unit ∈ scale.map TimeUnit.name) (rest : List Char) :
    Numeral.StartsApart (unit.toList ++ rest) := by
  have hunits : ∀ unit ∈ scale.map TimeUnit.name, ∃ c cs, unit.toList = c :: cs
      ∧ c.isDigit = false := by
    simp [scale]
  obtain ⟨c, cs, hunit, hc⟩ := hunits unit h
  rw [hunit]
  exact Text.Numeral.startsApart_cons hc _

theorem amount?_append {unit : String} (h : unit ∈ scale.map TimeUnit.name) (n : Nat)
    {rest : List Char} (hrest : Continues rest) :
    amount? (Nat.toDigits 10 n ++ unit.toList ++ rest) = some ((n, unit), rest) := by
  have hspan := Text.Numeral.span_digits
    (fun c hc => Text.Numeral.isDigit_of_mem_toDigits (n := n) hc) (startsApart_unit h rest)
  rw [List.append_assoc, amount?, hspan]
  split
  · rename_i heq
    simp at heq
  · rename_i heq
    simp only [Prod.mk.injEq] at heq
    rw [← heq.2, unitName?_append h hrest, ← heq.1, Text.Numeral.value_toDigits]
    rfl

/-- Numbers with units of the scale are read back as they were written. -/
theorem amounts?_amountsText {amounts : List (Nat × String)}
    (h : ∀ amount ∈ amounts, amount.2 ∈ scale.map TimeUnit.name) :
    amounts? (amountsText amounts) = some amounts := by
  induction amounts with
  | nil =>
    have hnil : amountsText [] = [] := rfl
    rw [amounts?, if_pos hnil]
  | cons amount amounts ih =>
    obtain ⟨hunit, h⟩ := List.forall_mem_cons.1 h
    have hread := amount?_append hunit amount.1 (continues_amountsText amounts)
    have hne : amountsText (amount :: amounts) ≠ [] := by simp [amountsText]
    rw [amounts?, if_neg hne]
    split
    · rename_i hnone
      cases hread.symm.trans hnone
    · rename_i amount' rest hsome
      obtain ⟨rfl, rfl⟩ := Prod.mk.inj (Option.some.inj (hread.symm.trans hsome))
      rw [ih h]
      rfl

/-! ## The text of a span -/

/-- The absolute magnitudes of parts with their units. -/
def magnitudes (parts : List Part) : List (Nat × String) :=
  parts.map fun part => (part.magnitude.toInt.natAbs, part.unit)

theorem toInt_abs {n : Int64} (h : n ≠ Int64.minValue) : n.abs.toInt = n.toInt.natAbs :=
  BitVec.toInt_abs_eq_natAbs_of_ne_intMin fun hmin => h (Int64.toBitVec.inj hmin)

theorem toList_partsText {parts : List Part}
    (h : ∀ part ∈ parts, part.magnitude ≠ Int64.minValue) :
    (partsText parts).toList
      = (if parts.any (·.magnitude < 0) then ['-'] else []) ++ amountsText (magnitudes parts) := by
  have hbody : ∀ part ∈ parts,
      (Text.Numeral.ofInt part.magnitude.abs.toInt ++ part.unit).toList
        = Nat.toDigits 10 part.magnitude.toInt.natAbs ++ part.unit.toList := by
    intro part hpart
    rw [String.toList_append, toInt_abs (h part hpart)]
    exact congrArg (· ++ _) (Text.Numeral.toList_ofInt_ofNat _)
  rw [partsText, String.toList_append, String.toList_join, amountsText, magnitudes,
    List.flatMap_map, List.flatMap_map, List.flatMap_congr hbody]
  split <;> rfl

/-- A text without a minus in front is read as its numbers say. -/
theorem read?_of_ne_minus {cs : List Char} (h : cs.head? ≠ some '-') :
    read? cs = (amounts? cs).bind fun amounts => ofNanos? (nanosOf amounts) := by
  unfold read?
  split
  · exact absurd rfl h
  · rfl

theorem nanosOf_magnitudes (s : Span) : nanosOf (magnitudes s.parts) = s.nanos.natAbs := by
  by_cases hzero : s.nanos = 0
  · rw [parts_of_zero hzero, hzero]
    rfl
  · have htotal := s.isCanonical_parts.total_amounts hzero
    rw [← htotal, nanosOf, magnitudes, total, List.map_map, List.map_map]
    rfl

theorem parts_ne_nil (s : Span) : s.parts ≠ [] := by
  unfold parts
  split
  · simp
  · assumption

/-- A part is below zero exactly if the span is. -/
theorem any_negative (s : Span) : s.parts.any (·.magnitude < 0) = decide (s.nanos < 0) := by
  by_cases hzero : s.nanos = 0
  · rw [parts_of_zero hzero, hzero]
    decide
  · have hsigned := s.isCanonical_parts.signed hzero
    have hnegative : ∀ part ∈ s.parts, part.magnitude < 0 ↔ s.nanos < 0 := by
      intro part hpart
      rw [Int64.lt_iff_toInt_lt, ← Int.sign_eq_neg_one_iff_neg (a := s.nanos),
        ← (hsigned part hpart).2, Int.sign_eq_neg_one_iff_neg]
      rfl
    obtain ⟨first, hfirst⟩ := List.exists_mem_of_ne_nil _ s.parts_ne_nil
    rw [Bool.eq_iff_iff, List.any_eq_true]
    simp only [decide_eq_true_eq]
    exact ⟨fun ⟨part, hpart, hneg⟩ => (hnegative part hpart).1 hneg,
      fun hneg => ⟨first, hfirst, (hnegative first hfirst).2 hneg⟩⟩

theorem ofNanos?_nanos (s : Span) : ofNanos? s.nanos = some s := by
  rw [ofNanos?, dif_pos s.bounded]

theorem unit_mem_scale (s : Span) :
    ∀ amount ∈ magnitudes s.parts, amount.2 ∈ scale.map TimeUnit.name := by
  intro amount ha
  obtain ⟨part, hpart, rfl⟩ := List.mem_map.1 ha
  exact s.isCanonical_parts.ordered.subset (List.mem_map_of_mem hpart)

/-- The text of a span is read as that span. -/
theorem read?_text (s : Span) : read? s.text.toList = some s := by
  have hread := amounts?_amountsText s.unit_mem_scale
  rw [text, toList_partsText fun part hpart => ne_minValue_of_mem_parts hpart, any_negative]
  by_cases hneg : s.nanos < 0
  · rw [if_pos (by simpa using hneg), List.cons_append, List.nil_append, read?, hread,
      Option.bind_some, nanosOf_magnitudes, show -(s.nanos.natAbs : Int) = s.nanos by omega,
      ofNanos?_nanos]
  · have hfront : (amountsText (magnitudes s.parts)).head? ≠ some '-' := by
      intro hminus
      exact absurd (continues_amountsText _ '-' hminus) (by decide)
    rw [if_neg (by simpa using hneg), List.nil_append, read?_of_ne_minus hfront, hread,
      Option.bind_some, nanosOf_magnitudes, show (s.nanos.natAbs : Int) = s.nanos by omega,
      ofNanos?_nanos]

/-- The parts of a span are found without leaving the 64-bit range, also when their signs are taken
off again; they are its canonical parts, and no other list is; and what is written for them is read
as the span. -/
theorem parts_are_canonical (s : Span) :
    s.partsExactly? = some s.parts
      ∧ (∀ part ∈ s.parts, part.magnitude.abs.toInt = part.magnitude.toInt.natAbs)
      ∧ (∀ parts, IsCanonical s.nanos parts ↔ parts = s.parts)
      ∧ read? s.text.toList = some s :=
  ⟨s.partsExactly?_eq, fun _ hpart => toInt_abs (ne_minValue_of_mem_parts hpart),
    s.isCanonical_iff, s.read?_text⟩

example : (ofInt64 Int64.minValue).text = "-106751d23h47m16s854ms775us808ns" := by decide +kernel

end EntityFlux.Span
