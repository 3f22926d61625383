import EntityFlux.Proofs.DurationText
import EntityFlux.Proofs.RequestJson
import EntityFlux.Proofs.Spellings
import EntityFlux.Proofs.StringLiterals

/-!
# The text of a document

A literal other than a fraction is shown on one line, and the last character tells of what kind it
is; among literals of one kind the text can be read back. So the lines of a document's text are its
statements, and two documents with the same text bind the same literals (`eq_of_text`).
-/

namespace EntityFlux

open Flux Text

/-! ## One line -/

/-- The kind of literal that is shown with this character at the end. -/
def kindOfEnd (c : Char) : String :=
  if c = '"' then "string"
  else if c = 'Z' then "datetime"
  else if c = 'e' then "boolean"
  else if c.isDigit then "integer"
  else "duration"

/-- A text on one line that ends like a literal of the kind. -/
structure Shows (kind : String) (cs : List Char) : Prop where
  oneLine : '\n' ∉ cs
  ending : cs.getLast?.map kindOfEnd = some kind

theorem newline_not_mem_of_isDigit {digits : List Char} (h : ∀ c ∈ digits, c.isDigit) :
    '\n' ∉ digits := fun hmem => absurd (h '\n' hmem) (by decide)

namespace Shows

variable {kind : String} {front cs : List Char}

theorem append (hfront : '\n' ∉ front) (h : Shows kind cs) : Shows kind (front ++ cs) := by
  obtain ⟨c, hc, hkind⟩ := Option.map_eq_some_iff.1 h.ending
  refine ⟨List.not_mem_append hfront h.oneLine, ?_⟩
  rw [List.getLast?_append, hc, Option.some_or, Option.map_some, hkind]

theorem digits {digits : List Char} (hne : digits ≠ []) (h : ∀ c ∈ digits, c.isDigit) :
    Shows "integer" digits := by
  have hkind : ∀ c : Char, c.isDigit → kindOfEnd c = "integer" := by
    intro c hc
    unfold kindOfEnd
    rw [if_neg, if_neg, if_neg, if_pos hc] <;> rintro rfl <;> exact absurd hc (by decide)
  refine ⟨newline_not_mem_of_isDigit h, ?_⟩
  rw [List.getLast?_eq_some_getLast hne, Option.map_some, hkind _ (h _ (digits.getLast_mem hne))]

theorem ofInt (i : Int) : Shows "integer" (Numeral.ofInt i).toList := by
  have hdigits : ∀ n, Shows "integer" (Nat.toDigits 10 n) := fun n =>
    digits (by simp) fun c hc => Numeral.isDigit_of_mem_toDigits hc
  cases i with
  | ofNat n =>
    rw [Numeral.toList_ofInt_ofNat]
    exact hdigits n
  | negSucc n =>
    rw [Numeral.toList_ofInt_negSucc]
    exact append (show '\n' ∉ ['-'] by decide) (hdigits (n + 1))

theorem booleanText (b : Bool) : Shows "boolean" (Literal.booleanText b).toList := by
  cases b
  · exact ⟨by decide, rfl⟩
  · exact ⟨by decide, rfl⟩

end Shows

theorem Text.Quoted.newline_not_mem_encodeChar (coded : Char → Bool) (c : Char) :
    '\n' ∉ encodeChar coded c := by
  unfold encodeChar
  split_ifs with hnull htab hreturn hnewline hquote hslash hcoded
  · decide
  · decide
  · decide
  · decide
  · decide
  · decide
  · unfold codePoint
    simp only [List.mem_append, not_or]
    refine ⟨⟨by decide, fun hmem => ?_⟩, by decide⟩
    obtain ⟨d, -, hd⟩ := mem_toDigits_hex hmem
    exact Nat.digitChar_ne _ rfl hd.symm
  · simpa using Ne.symm hnewline

theorem shows_quote (s : String) : Shows "string" (quote s).toList := by
  rw [quote, String.toList_ofList, Quoted.encode, ← List.cons_append]
  refine Shows.append ?_ ⟨by decide, rfl⟩
  simp only [List.mem_cons, List.mem_flatMap, not_or, not_exists, not_and]
  exact ⟨by decide, fun c _ => Quoted.newline_not_mem_encodeChar _ c⟩

theorem Span.shows_amountsText {amounts : List (Nat × String)} (hne : amounts ≠ [])
    (h : ∀ amount ∈ amounts, amount.2 ∈ scale.map TimeUnit.name) :
    Shows "duration" (amountsText amounts) := by
  have hunits : ∀ unit ∈ scale.map TimeUnit.name,
      '\n' ∉ unit.toList ∧ unit.toList.getLast?.map kindOfEnd = some "duration" := by
    decide
  have hfirst : ∀ amount ∈ amounts,
      Shows "duration" (Nat.toDigits 10 amount.1 ++ amount.2.toList) := by
    intro amount hamount
    obtain ⟨hline, hend⟩ := hunits amount.2 (h amount hamount)
    exact .append (newline_not_mem_of_isDigit fun c hc => Numeral.isDigit_of_mem_toDigits hc)
      ⟨hline, hend⟩
  induction amounts with
  | nil => exact absurd rfl hne
  | cons amount amounts ih =>
    rw [amountsText, List.flatMap_cons]
    obtain ⟨hamount, hothers⟩ := List.forall_mem_cons.1 hfirst
    cases amounts with
    | nil => simpa using hamount
    | cons next amounts =>
      exact .append hamount.oneLine
        (ih (by simp) (fun other hother => h other (List.mem_cons_of_mem _ hother)) hothers)

theorem Span.shows_text (s : Span) : Shows "duration" s.text.toList := by
  rw [text, toList_partsText fun part hpart => ne_minValue_of_mem_parts hpart]
  refine .append ?_ (shows_amountsText ?_ s.unit_mem_scale)
  · split <;> decide
  · simpa [magnitudes] using s.parts_ne_nil

theorem Instant.shows_text (t : Instant) : Shows "datetime" t.text.toList := by
  have hpadded : ∀ width n, '\n' ∉ (Numeral.padded width n).toList := fun width n =>
    newline_not_mem_of_isDigit fun c hc => Numeral.isDigit_of_mem_padded hc
  have hyear : ∀ year, '\n' ∉ (yearText year).toList := by
    intro year
    unfold yearText
    split_ifs
    · exact hpadded 4 _
    · simp [hpadded]
    · simp [hpadded]
  have hfraction : ∀ nano, '\n' ∉ (fractionText nano).toList := by
    intro nano
    unfold fractionText
    split_ifs
    · decide
    · simp [hpadded]
    · simp [hpadded]
    · simp [hpadded]
  rw [text, String.toList_append]
  refine .append ?_ ⟨by decide, rfl⟩
  simp [hpadded, hyear, hfraction]

theorem Literal.shows_text {value : Literal} (h : value.isFloat = false) :
    Shows value.kind (Node.ofLiteral value).text.toList := by
  cases value with
  | string s => exact shows_quote s
  | integer i => exact .ofInt i.toInt
  | float x => cases h
  | duration span => exact span.shows_text
  | boolean b => exact .booleanText b
  | dateTime t => exact t.shows_text

/-! ## One literal -/

theorem Text.Numeral.toDigits_injective : Function.Injective (Nat.toDigits 10) := by
  intro m n h
  rw [← value_toDigits m, h, value_toDigits]

theorem Text.Numeral.ofInt_injective : Function.Injective ofInt := by
  have hapart : ∀ m n, (ofInt (.ofNat m)).toList ≠ (ofInt (.negSucc n)).toList := by
    intro m n h
    rw [toList_ofInt_ofNat, toList_ofInt_negSucc] at h
    have hminus : '-' ∈ Nat.toDigits 10 m := h ▸ List.mem_cons_self
    exact absurd (isDigit_of_mem_toDigits hminus) (by decide)
  intro i j h
  have hlist := congrArg String.toList h
  cases i with
  | ofNat m =>
    cases j with
    | ofNat n =>
      rw [toList_ofInt_ofNat, toList_ofInt_ofNat] at hlist
      rw [toDigits_injective hlist]
    | negSucc n => exact absurd hlist (hapart m n)
  | negSucc m =>
    cases j with
    | ofNat n => exact absurd hlist.symm (hapart n m)
    | negSucc n =>
      rw [toList_ofInt_negSucc, toList_ofInt_negSucc] at hlist
      rw [Nat.succ.inj (toDigits_injective (List.cons.inj hlist).2)]

theorem Text.quote_injective : Function.Injective quote := by
  intro s t h
  have hlist := congrArg String.toList h
  simp only [quote, String.toList_ofList, Quoted.encode, List.cons.injEq, true_and] at hlist
  have hbody := List.append_cancel_right hlist
  have hdecode := decode_encode Quoted.isCoded s.toList
  rw [hbody, decode_encode] at hdecode
  exact String.toList_inj.1 (Option.some.inj hdecode).symm

theorem Literal.booleanText_injective : Function.Injective booleanText := by decide

theorem Span.text_injective : Function.Injective Span.text := by
  intro s t h
  have hread := s.read?_text
  rw [h, t.read?_text] at hread
  exact (Option.some.inj hread).symm

/-- Literals that are shown alike are the same, of whatever kinds they are. -/
theorem Literal.eq_of_text {value value' : Literal} (h : value.isFloat = false)
    (h' : value'.isFloat = false)
    (htext : (Node.ofLiteral value).text = (Node.ofLiteral value').text) : value = value' := by
  -- the last character settles the kind, and within a kind the text can be read back
  have hkind : value.kind = value'.kind := by
    have hend := (shows_text h).ending
    rw [htext, (shows_text h').ending] at hend
    exact (Option.some.inj hend).symm
  cases value with
  | string s =>
    cases value' with
    | string s' => exact congrArg Literal.string (quote_injective htext)
    | _ => simp [kind] at hkind
  | integer i =>
    cases value' with
    | integer i' =>
      exact congrArg Literal.integer (Int64.toInt_inj.1 (Numeral.ofInt_injective htext))
    | _ => simp [kind] at hkind
  | float x => cases h
  | duration span =>
    cases value' with
    | duration span' => exact congrArg Literal.duration (Span.text_injective htext)
    | _ => simp [kind] at hkind
  | boolean b =>
    cases value' with
    | boolean b' => exact congrArg Literal.boolean (booleanText_injective htext)
    | _ => simp [kind] at hkind
  | dateTime t =>
    cases value' with
    | dateTime t' => exact congrArg Literal.dateTime (Instant.text_injective htext)
    | _ => simp [kind] at hkind

/-! ## Documents -/

theorem Flux.Binding.text_parameter (n : Nat) (node : Node) :
    Binding.text ⟨parameterName n, node⟩
      = "option p" ++ Numeral.ofNat n ++ " = " ++ node.text := by
  rw [Binding.text, parameterName, ← String.append_assoc]
  rfl

section Lines

variable {values values' : List Literal} (hfloat : ∀ value ∈ values, value.isFloat = false)
  (hfloat' : ∀ value ∈ values', value.isFloat = false)

theorem newline_not_mem_parameterName (n : Nat) : '\n' ∉ (parameterName n).toList := by
  have hdigits : '\n' ∉ Nat.toDigits 10 n :=
    newline_not_mem_of_isDigit fun c hc => Numeral.isDigit_of_mem_toDigits hc
  simp [parameterName, Numeral.ofNat, hdigits]

include hfloat in
/-- Every statement is one line. -/
theorem lines_bindingsFrom (hne : values ≠ []) (bound : Nat) :
    (Document.text { body := Progress.bindingsFrom bound values }).toList.splitOn '\n'
      = (Progress.bindingsFrom bound values).map fun binding => binding.text.toList := by
  rw [Document.text, String.toList_intercalate, List.map_map]
  refine List.splitOn_intercalate '\n' ?_ ?_
  · intro line hline
    obtain ⟨binding, hbinding, rfl⟩ := List.mem_map.1 hline
    rw [Progress.bindingsFrom_eq] at hbinding
    obtain ⟨i, hi, rfl⟩ := List.mem_mapIdx.1 hbinding
    have hvalue := (Literal.shows_text (hfloat _ (List.getElem_mem hi))).oneLine
    simp [Binding.text, newline_not_mem_parameterName, hvalue]
  · cases values with
    | nil => exact absurd rfl hne
    | cons value values => simp [Progress.bindingsFrom]

include hfloat hfloat' in
theorem eq_of_map_text (bound : Nat)
    (h : (Progress.bindingsFrom bound values).map (fun binding => binding.text.toList)
      = (Progress.bindingsFrom bound values').map fun binding => binding.text.toList) :
    values = values' := by
  induction values generalizing values' bound with
  | nil =>
    cases values' with
    | nil => rfl
    | cons value' values' => simp [Progress.bindingsFrom] at h
  | cons value values ih =>
    cases values' with
    | nil => simp [Progress.bindingsFrom] at h
    | cons value' values' =>
      obtain ⟨hvalue, hvalues⟩ := List.forall_mem_cons.1 hfloat
      obtain ⟨hvalue', hvalues'⟩ := List.forall_mem_cons.1 hfloat'
      simp only [Progress.bindingsFrom, List.map_cons] at h
      obtain ⟨hfirst, hrest⟩ := List.cons.inj h
      have htext : (Node.ofLiteral value).text = (Node.ofLiteral value').text := by
        simpa [Binding.text, String.toList_inj] using hfirst
      rw [Literal.eq_of_text hvalue hvalue' htext, ih hvalues hvalues' (bound + 1) hrest]

end Lines

theorem Query.literals_ne_nil (settings : Settings) (entity : Entity) (bucket : String)
    (query : Query) : query.literals settings entity bucket ≠ [] := by
  simp [Query.literals, sourceLiterals]

/-- The text of a query's document has one line for each of its literals, whatever the strings among
them hold: the i-th line binds `p` and the number i to the i-th literal. Two queries with the same
text bind the same literals. -/
theorem Query.document_text_faithful {settings settings' : Settings}
    {registry registry' : Registry} {bucket bucket' : String} {query query' : Query}
    {request request' : Request}
    (h : (query.lower settings registry bucket).2 = .ok request)
    (h' : (query'.lower settings' registry' bucket').2 = .ok request')
    (hfloat : ∀ value ∈ query.constants, value.isFloat = false)
    (hfloat' : ∀ value ∈ query'.constants, value.isFloat = false) :
    ∃ entity entity', registry.find? query.entity = some entity
      ∧ registry'.find? query'.entity = some entity'
      ∧ request.bindings.text.toList.splitOn '\n'
        = (query.literals settings entity bucket).mapIdx (fun i value =>
          ("option p" ++ Numeral.ofNat (i + 1) ++ " = " ++ (Node.ofLiteral value).text).toList)
      ∧ (request.bindings.text = request'.bindings.text
        → query.literals settings entity bucket = query'.literals settings' entity' bucket'
          ∧ request.bindings = request'.bindings) := by
  obtain ⟨entity, hentity, hbindings⟩ := Query.bindings_of_lower h
  obtain ⟨entity', hentity', hbindings'⟩ := Query.bindings_of_lower h'
  have hvalues : ∀ value ∈ query.literals settings entity bucket, value.isFloat = false :=
    isFloat_literals hfloat settings bucket
  have hvalues' : ∀ value ∈ query'.literals settings' entity' bucket', value.isFloat = false :=
    isFloat_literals hfloat' settings' bucket'
  have hlines := lines_bindingsFrom hvalues (literals_ne_nil settings entity bucket query) 0
  have hlines' := lines_bindingsFrom hvalues' (literals_ne_nil settings' entity' bucket' query') 0
  refine ⟨entity, entity', hentity, hentity', ?_, ?_⟩
  · rw [hbindings]
    refine hlines.trans ?_
    rw [Progress.bindingsFrom_eq]
    refine List.ext_getElem? fun i => ?_
    rw [List.getElem?_map, List.getElem?_mapIdx, List.getElem?_mapIdx, Option.map_map]
    simp only [Function.comp_def, Nat.zero_add, Binding.text_parameter]
  · intro htext
    rw [hbindings, hbindings'] at htext ⊢
    have heq : query.literals settings entity bucket
        = query'.literals settings' entity' bucket' := by
      refine eq_of_map_text hvalues hvalues' 0 ?_
      rw [← hlines, ← hlines', htext]
    exact ⟨heq, by rw [heq]⟩

/-- A string that looks like the end of one statement and the whole of the next. -/
theorem Query.document_text_faithful_sample :
    ∃ request, (escapedSampleQuery.lower sampleSettings sampleRegistry "a\"\noption p2 = 0").2
        = .ok request
      ∧ (request.bindings.text.toList.splitOn '\n').map String.ofList
        = ["option p1 = \"a\\\"\\noption p2 = 0\"", "option p2 = 0", "option p3 = 86400",
          "option p4 = -1h30m1ns", "option p5 = \"\\\"\\\\\\n\\0é\"", "option p6 = 5",
          "option p7 = 2", "option p8 = 5"] := by
  obtain ⟨request, hrequest⟩ : ∃ request, (escapedSampleQuery.lower sampleSettings sampleRegistry
      "a\"\noption p2 = 0").2 = .ok request := ⟨_, rfl⟩
  have hfloat : ∀ value ∈ escapedSampleQuery.constants, value.isFloat = false := by decide
  obtain ⟨entity, -, hentity, -, hlines, -⟩ :=
    Query.document_text_faithful hrequest hrequest hfloat hfloat
  obtain rfl := Option.some.inj hentity
  refine ⟨request, hrequest, ?_⟩
  rw [hlines]
  decide +kernel

end EntityFlux
