import EntityFlux.Proofs.DurationText
import EntityFlux.Proofs.RequestJson

/-!
# Durations that are not canonical

A document can hold a duration with parts of any sign and size, which no span has. What should be
shown for it is one minus, if some magnitude is below zero, and then every magnitude without its sign
(`signedText`); that can be read back. It is what is shown unless a magnitude is the least 64-bit
integer, whose sign cannot be taken off: it is shown with the sign, and a minus inside the text
cannot be read (`minus_not_mem_of_amounts?`).
-/

namespace EntityFlux.Span

/-! ## What should be shown -/

def isNegative (parts : List Part) : Bool := parts.any fun part => part.magnitude.toInt < 0

/-- One minus for all parts that are below zero, then every part without its sign. -/
def signedText (parts : List Part) : List Char :=
  (if isNegative parts then ['-'] else []) ++ amountsText (magnitudes parts)

/-- A minus or none, then numbers with their units. -/
def readSigned? : List Char → Option (Bool × List (Nat × String))
  | '-' :: cs => (amounts? cs).map (true, ·)
  | cs => (amounts? cs).map (false, ·)

theorem readSigned?_of_ne_minus {cs : List Char} (h : cs.head? ≠ some '-') :
    readSigned? cs = (amounts? cs).map (false, ·) := by
  unfold readSigned?
  split
  · exact absurd rfl h
  · rfl

theorem readSigned?_signedText {parts : List Part}
    (hunits : ∀ part ∈ parts, part.unit ∈ scale.map TimeUnit.name) :
    readSigned? (signedText parts) = some (isNegative parts, magnitudes parts) := by
  have hread : amounts? (amountsText (magnitudes parts)) = some (magnitudes parts) :=
    amounts?_amountsText (List.forall_mem_map.2 hunits)
  unfold signedText
  cases isNegative parts with
  | true =>
    rw [if_pos rfl, List.cons_append, List.nil_append, readSigned?, hread]
    rfl
  | false =>
    have hfront : (amountsText (magnitudes parts)).head? ≠ some '-' := by
      intro hminus
      exact absurd (continues_amountsText _ '-' hminus) (by decide)
    rw [if_neg (by decide), List.nil_append, readSigned?_of_ne_minus hfront, hread]
    rfl

/-! ## What can be read -/

section Reading

variable {cs rest : List Char} {unit : String} {amount : Nat × String}
  {amounts : List (Nat × String)}

theorem minus_mem_of_unitName? (h : unitName? cs = some (unit, rest)) (hminus : '-' ∈ cs) :
    '-' ∈ rest := by
  unfold unitName? at h
  split at h <;> cases h <;> simpa using hminus

theorem minus_mem_of_amount? (h : amount? cs = some (amount, rest)) (hminus : '-' ∈ cs) :
    '-' ∈ rest := by
  rw [← Text.Numeral.span_append cs, List.mem_append] at hminus
  have hdigits : '-' ∉ (Text.Numeral.span cs).1 :=
    fun hmem => absurd (List.mem_takeWhile_imp hmem) (by decide)
  have hrest := hminus.resolve_left hdigits
  unfold amount? at h
  split at h
  · cases h
  · rename_i heq
    obtain ⟨⟨name, others⟩, hunit, heq'⟩ := Option.map_eq_some_iff.1 h
    obtain rfl : others = rest := congrArg Prod.snd heq'
    rw [heq] at hrest
    exact minus_mem_of_unitName? hunit hrest

/-- Behind its sign a duration has none. -/
theorem minus_not_mem_of_amounts? (h : amounts? cs = some amounts) : '-' ∉ cs := by
  induction hn : cs.length using Nat.strongRecOn generalizing cs amounts with
  | ind n ih =>
    rw [amounts?] at h
    split_ifs at h with hnil
    · simp [hnil]
    · split at h
      · cases h
      · rename_i amount rest hamount
        obtain ⟨others, hothers, -⟩ := Option.map_eq_some_iff.1 h
        have hlength := length_of_amount? hamount
        intro hminus
        exact ih rest.length (by omega) hothers rfl (minus_mem_of_amount? hamount hminus)

end Reading

/-! ## What is shown -/

theorem toInt_abs_iff {n : Int64} : n.abs.toInt = n.toInt.natAbs ↔ n ≠ Int64.minValue := by
  refine ⟨?_, toInt_abs⟩
  rintro h rfl
  exact absurd h (by decide)

section Shown

variable {parts : List Part}

theorem any_lt_zero (parts : List Part) : parts.any (·.magnitude < 0) = isNegative parts := by
  simp only [isNegative, Int64.lt_iff_toInt_lt]
  rfl

theorem partsText_eq_signedText (h : ∀ part ∈ parts, part.magnitude ≠ Int64.minValue) :
    (partsText parts).toList = signedText parts := by
  rw [toList_partsText h, any_lt_zero, signedText]

/-- The least magnitude keeps its sign behind the sign of the whole. -/
theorem minus_mem_of_minValue {part : Part} (hpart : part ∈ parts)
    (hmin : part.magnitude = Int64.minValue) :
    ∃ body, (partsText parts).toList = '-' :: body ∧ '-' ∈ body := by
  have hnegative : isNegative parts = true := by
    rw [isNegative, List.any_eq_true]
    exact ⟨part, hpart, by rw [hmin]; decide⟩
  have hshown : '-' ∈ (Text.Numeral.ofInt part.magnitude.abs.toInt ++ part.unit).toList := by
    have habs : (Text.Numeral.ofInt Int64.minValue.abs.toInt).toList
        = '-' :: Nat.toDigits 10 9223372036854775808 := by decide +kernel
    rw [hmin, String.toList_append, habs]
    exact List.mem_cons_self
  have htext : (partsText parts).toList
      = '-' :: (parts.map fun part => Text.Numeral.ofInt part.magnitude.abs.toInt
        ++ part.unit).flatMap String.toList := by
    rw [partsText, any_lt_zero, hnegative, if_pos rfl, String.toList_append, String.toList_join]
    rfl
  refine ⟨_, htext, ?_⟩
  rw [List.mem_flatMap]
  exact ⟨_, List.mem_map_of_mem hpart, hshown⟩

/-- What is shown can be read only if every sign was taken off. -/
theorem ne_minValue_of_readSigned? {shown : Bool × List (Nat × String)}
    (h : readSigned? (partsText parts).toList = some shown) :
    ∀ part ∈ parts, part.magnitude ≠ Int64.minValue := by
  intro part hpart hmin
  obtain ⟨body, htext, hminus⟩ := minus_mem_of_minValue hpart hmin
  rw [htext, readSigned?] at h
  obtain ⟨amounts, hamounts, -⟩ := Option.map_eq_some_iff.1 h
  exact minus_not_mem_of_amounts? hamounts hminus

end Shown

/-- Any parts with units of the scale can be read from a document. They are shown as they should,
what is shown is read back as their magnitudes and units, and no sign is lost on the way out of the
64-bit range, each of it exactly if no magnitude is the least 64-bit integer. -/
theorem parts_shown_iff {parts : List Part}
    (hunits : ∀ part ∈ parts, part.unit ∈ ["d", "h", "m", "s", "ms", "us", "ns"]) (name : String) :
    let document : Flux.Document := { body := [⟨name, .duration parts⟩] }
    let shown := (Flux.Node.duration parts).text.toList
    Flux.Document.ofJson? document.json = some document
      ∧ (shown = signedText parts ↔ ∀ part ∈ parts, part.magnitude ≠ Int64.minValue)
      ∧ (readSigned? shown = some (isNegative parts, magnitudes parts)
        ↔ ∀ part ∈ parts, part.magnitude ≠ Int64.minValue)
      ∧ ((∀ part ∈ parts, part.magnitude.abs.toInt = part.magnitude.toInt.natAbs)
        ↔ ∀ part ∈ parts, part.magnitude ≠ Int64.minValue) := by
  intro document shown
  have hread : readSigned? (signedText parts) = some (isNegative parts, magnitudes parts) :=
    readSigned?_signedText hunits
  refine ⟨Flux.Document.ofJson?_json ?_, ⟨?_, partsText_eq_signedText⟩,
    ⟨ne_minValue_of_readSigned?, ?_⟩, ?_⟩
  · exact List.forall_mem_singleton.2 rfl
  · intro heq
    exact ne_minValue_of_readSigned? (heq ▸ hread)
  · intro hmin
    have heq : shown = signedText parts := partsText_eq_signedText hmin
    rw [heq, hread]
  · exact forall₂_congr fun part _ => toInt_abs_iff

/-- Signs that differ, both ends of the range but one, and a unit in front of a longer one. -/
theorem parts_shown_iff_sample :
    let parts : List Part := [⟨9223372036854775807, "m"⟩, ⟨-9223372036854775807, "ms"⟩, ⟨0, "s"⟩]
    (Flux.Node.duration parts).text = "-9223372036854775807m9223372036854775807ms0s"
      ∧ readSigned? (Flux.Node.duration parts).text.toList
        = some (true, [(9223372036854775807, "m"), (9223372036854775807, "ms"), (0, "s")]) := by
  intro parts
  have hunits : ∀ part ∈ parts, part.unit ∈ ["d", "h", "m", "s", "ms", "us", "ns"] := by decide
  have hmin : ∀ part ∈ parts, part.magnitude ≠ Int64.minValue := by decide
  exact ⟨by decide +kernel, (parts_shown_iff hunits "p1").2.2.1.2 hmin⟩

/-- The least magnitude is shown with two signs. -/
theorem least_magnitude_overflows :
    (Flux.Node.duration [⟨Int64.minValue, "ns"⟩]).text = "--9223372036854775808ns"
      ∧ Int64.minValue.abs.toInt = -9223372036854775808 := by decide +kernel

end EntityFlux.Span
