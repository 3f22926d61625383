import EntityFlux.Json.Printer
import EntityFlux.Json.Reader
import EntityFlux.Proofs.Numerals
import Mathlib.Tactic.SplitIfs

/-!
# Reading JSON text back

The text of a value is read as that value, unless a part of it is a fraction or unusable or a whole
number is too large (`Exact.read?_text`): each reader takes off the front exactly what was written
for it, and the length of a text bounds the steps that reading it takes. No text, written or not, is
read as a value with more than 127 containers inside each other (`depth_le_of_read?`).
-/

namespace EntityFlux.Json

open EntityFlux.Text

section Lists

variable {α β : Type}

theorem exists_of_mem_mapM {f : α → Option β} {xs : List α} {ys : List β}
    (h : xs.mapM f = some ys) {y : β} (hy : y ∈ ys) : ∃ x ∈ xs, f x = some y := by
  induction xs generalizing ys with
  | nil =>
    obtain rfl : ys = [] := by simpa using h
    cases hy
  | cons x xs ih =>
    simp only [List.mapM_cons, Option.bind_eq_bind, Option.bind_eq_some_iff, Option.pure_def,
      Option.some.injEq] at h
    obtain ⟨first, hfirst, others, hothers, rfl⟩ := h
    rcases List.mem_cons.1 hy with rfl | hy
    · exact ⟨x, by simp, hfirst⟩
    · obtain ⟨x', hx', hf⟩ := ih hothers hy
      exact ⟨x', by simp [hx'], hf⟩

theorem mapM_map_eq_some {f : β → Option α} {g : α → β} {xs : List α}
    (h : ∀ x ∈ xs, f (g x) = some x) : (xs.map g).mapM f = some xs := by
  induction xs with
  | nil => rfl
  | cons x xs ih =>
    rw [List.map_cons, List.mapM_cons, h x (by simp), ih fun y hy => h y (by simp [hy])]
    rfl

end Lists

namespace Reader

/-! ### Strings -/

theorem units?_named {e : Char} {unit : Nat} (h : escaped? e = some unit) (cs : List Char) :
    units? ('\\' :: e :: cs) = (units? cs).map fun (units, rest) => (unit :: units, rest) := by
  have hu : e ≠ 'u' := by
    rintro rfl
    simp [escaped?] at h
  rw [units?, h]
  · cases units? cs <;> rfl
  · intro a b c d rest he
    exact absurd he hu

theorem units?_numbered {c : Char} (h : c.toNat < 0x20) (cs : List Char) :
    units? ('\\' :: 'u' :: '0' :: '0' :: Nat.digitChar (c.toNat / 16)
        :: Nat.digitChar (c.toNat % 16) :: cs)
      = (units? cs).map fun (units, rest) => (c.toNat :: units, rest) := by
  have hdigit : ∀ d < 16, Numeral.hexDigit? (Nat.digitChar d) = some d := by decide
  have hhigh := hdigit (c.toNat / 16) (by omega)
  have hlow := hdigit (c.toNat % 16) (by omega)
  have hzero : Numeral.hexDigit? '0' = some 0 := rfl
  have hhex : Numeral.hex? 4
      ['0', '0', Nat.digitChar (c.toNat / 16), Nat.digitChar (c.toNat % 16)] 0
      = some (16 * (c.toNat / 16) + c.toNat % 16, []) := by
    simp [Numeral.hex?, hhigh, hlow, hzero]
  rw [units?, hhex, Nat.div_add_mod]
  cases units? cs <;> rfl

theorem units?_itself {c : Char} (hquote : c ≠ '"') (hback : c ≠ '\\') (h : ¬ c.toNat < 0x20)
    (cs : List Char) :
    units? (c :: cs) = (units? cs).map fun (units, rest) => (c.toNat :: units, rest) := by
  rw [units?]
  · cases units? cs <;> simp [hback, h]
  all_goals simp_all

/-- A character that is written in a string is read as itself, whatever follows. -/
theorem units?_escapeChar (c : Char) (cs : List Char) :
    units? (escapeChar c ++ cs)
      = (units? cs).map fun (units, rest) => (c.toNat :: units, rest) := by
  unfold escapeChar
  split_ifs with hquote hback h8 h9 h10 h12 h13 hcontrol
  · subst hquote
    exact units?_named rfl cs
  · subst hback
    exact units?_named rfl cs
  · subst h8
    exact units?_named rfl cs
  · subst h9
    exact units?_named rfl cs
  · subst h10
    exact units?_named rfl cs
  · subst h12
    exact units?_named rfl cs
  · subst h13
    exact units?_named rfl cs
  · exact units?_numbered hcontrol cs
  · exact units?_itself hquote hback hcontrol cs

theorem units?_escaped (cs rest : List Char) :
    units? (cs.flatMap escapeChar ++ '"' :: rest) = some (cs.map Char.toNat, rest) := by
  induction cs with
  | nil => rw [List.flatMap_nil, List.nil_append, units?, List.map_nil]
  | cons c cs ih =>
    rw [List.flatMap_cons, List.append_assoc, units?_escapeChar, ih]
    rfl

/-- No character is half of a surrogate pair. -/
theorem not_half (c : Char) : isHighHalf c.toNat = false ∧ isLowHalf c.toNat = false := by
  have hvalid : c.toNat < 0xd800 ∨ (0xdfff < c.toNat ∧ c.toNat < 0x110000) := c.valid
  simp only [isHighHalf, isLowHalf, Bool.and_eq_false_iff, decide_eq_false_iff_not]
  omega

theorem characters?_toNat (cs : List Char) : characters? (cs.map Char.toNat) = some cs := by
  induction cs with
  | nil => rfl
  | cons c cs ih =>
    obtain ⟨hhigh, hlow⟩ := not_half c
    cases cs with
    | nil => simp [characters?, hhigh, hlow]
    | cons d cs =>
      rw [List.map_cons] at ih
      simp [characters?, hhigh, hlow, ih]

theorem toList_stringText (s : String) :
    (stringText s).toList = '"' :: (s.toList.flatMap escapeChar ++ ['"']) := by
  simp [stringText]

theorem string?_stringText (s : String) (rest : List Char) :
    string? (s.toList.flatMap escapeChar ++ '"' :: rest) = some (some s, rest) := by
  simp [string?, units?_escaped, characters?_toNat]

/-! ### Numbers -/

/-- What stands behind a value inside an array or an object, or at the end of the text. -/
def Ends (rest : List Char) : Prop := ∀ c ∈ rest.head?, c = ',' ∨ c = ']' ∨ c = '\x7d'

theorem Ends.startsApart {rest : List Char} (h : Ends rest) : Numeral.StartsApart rest := by
  intro c hc
  rcases h c hc with rfl | rfl | rfl <;> rfl

theorem digits?_toDigits (n : Nat) {rest : List Char} (hrest : Ends rest) :
    Number.digits? (Nat.toDigits 10 n ++ rest) = some (Nat.toDigits 10 n, rest) := by
  unfold Number.digits?
  rw [Numeral.span_digits (fun c hc => Numeral.isDigit_of_mem_toDigits hc) hrest.startsApart]
  split
  · rename_i heq
    simp at heq
  · rfl

theorem whole?_toDigits (n : Nat) {rest : List Char} (hrest : Ends rest) :
    Number.whole? (Nat.toDigits 10 n ++ rest) = some (Nat.toDigits 10 n, rest) := by
  unfold Number.whole?
  rw [digits?_toDigits n hrest]
  split
  · rename_i c others _ heq
    have hlead : Nat.toDigits 10 n = '0' :: c :: others :=
      (Prod.ext_iff.1 (Option.some.inj heq)).1
    rcases Nat.eq_zero_or_pos n with rfl | hpos
    · simp at hlead
    · exact absurd (by rw [hlead]; rfl) (Numeral.head?_toDigits hpos)
  · rfl

theorem fraction?_of_ends {rest : List Char} (hrest : Ends rest) :
    Number.fraction? rest = some (none, rest) := by
  unfold Number.fraction?
  split
  · have := hrest '.' (by simp)
    simp at this
  · rfl

theorem exponent?_of_ends {rest : List Char} (hrest : Ends rest) :
    Number.exponent? rest = some (none, rest) := by
  unfold Number.exponent?
  split
  · have := hrest 'e' (by simp)
    simp at this
  · have := hrest 'E' (by simp)
    simp at this
  · rfl

/-- Digits, with or without a sign, that no point and no exponent follows. -/
theorem token?_toDigits (n : Nat) {rest : List Char} (hrest : Ends rest) :
    Number.token? (Nat.toDigits 10 n ++ rest)
        = some (⟨false, Nat.toDigits 10 n, [], 0, true⟩, rest)
      ∧ Number.token? ('-' :: (Nat.toDigits 10 n ++ rest))
        = some (⟨true, Nat.toDigits 10 n, [], 0, true⟩, rest) := by
  have hne : ∀ cs, Nat.toDigits 10 n ++ rest ≠ '-' :: cs := by
    intro cs heq
    have hdigit := Numeral.isDigit_front (fun c hc => Numeral.isDigit_of_mem_toDigits hc)
      (by simp) heq
    exact absurd hdigit (by decide)
  constructor
  · unfold Number.token?
    split
    rename_i negative cs heq
    split at heq
    · rename_i heq'
      exact absurd heq' (hne _)
    · obtain ⟨rfl, rfl⟩ := Prod.mk.inj heq
      simp [whole?_toDigits n hrest, fraction?_of_ends hrest, exponent?_of_ends hrest]
  · simp [Number.token?, whole?_toDigits n hrest, fraction?_of_ends hrest, exponent?_of_ends hrest]

theorem read?_ofInt {i : Int} (hlow : -9223372036854775808 ≤ i) (hhigh : i < 18446744073709551616)
    {rest : List Char} (hrest : Ends rest) :
    Number.read? ((Numeral.ofInt i).toList ++ rest) = some (.int i, rest) := by
  cases i with
  | ofNat n =>
    have hfits : n < Number.wordLimit := Int.ofNat_lt.1 hhigh
    rw [Numeral.toList_ofInt_ofNat, Number.read?, (token?_toDigits n hrest).1]
    simp [Number.Token.json, Numeral.value_toDigits, hfits]
  | negSucc n =>
    have hfits : 2 * (n + 1) ≤ Number.wordLimit := by
      unfold Number.wordLimit
      omega
    rw [Numeral.toList_ofInt_negSucc, Number.read?, List.cons_append,
      (token?_toDigits (n + 1) hrest).2]
    simp [Number.Token.json, Numeral.value_toDigits, hfits, Int.negSucc_eq]

end Reader

open Reader

/-! ### Values -/

/-- Values that their text brings back: every whole number fits into 64 bits, signed below zero and
unsigned above, and no part is a fraction or unusable. -/
inductive Exact : Json → Prop
  | null : Exact .null
  | bool (b : Bool) : Exact (.bool b)
  | int {i : Int} (hlow : -9223372036854775808 ≤ i) (hhigh : i < 18446744073709551616) :
      Exact (.int i)
  | str (s : String) : Exact (.str s)
  | arr {items : List Json} : (∀ item ∈ items, Exact item) → Exact (.arr items)
  | obj {fields : List (String × Json)} : (∀ field ∈ fields, Exact field.2) → Exact (.obj fields)

/-- The text of a value is taken off the front of what has to be read. Reading a character takes
two steps at most. -/
def ReadsBack (json : Json) : Prop :=
  ∀ (fuel depth : Nat) (rest : List Char), 2 * json.text.toList.length ≤ fuel + 1 →
    depth + json.depth ≤ depthLimit → Ends rest →
    value? (fuel + 1) depth (json.text.toList ++ rest) = some (json, rest)

theorem toList_arr (items : List Json) :
    (text (.arr items)).toList = '[' :: ((itemsText items).toList ++ [']']) := by
  simp [text]

theorem toList_obj (fields : List (String × Json)) :
    (text (.obj fields)).toList = '\x7b' :: ((fieldsText fields).toList ++ ['\x7d']) := by
  simp [text]

theorem ofInt_front (i : Int) :
    ∃ c cs, (Numeral.ofInt i).toList = c :: cs ∧ (c = '-' ∨ c.isDigit) := by
  cases i with
  | ofNat n =>
    cases hdigits : Nat.toDigits 10 n with
    | nil => simp at hdigits
    | cons c cs =>
      have hc : c ∈ Nat.toDigits 10 n := by simp [hdigits]
      exact ⟨c, cs, (Numeral.toList_ofInt_ofNat n).trans hdigits,
        .inr (Numeral.isDigit_of_mem_toDigits hc)⟩
  | negSucc n =>
    exact ⟨'-', Nat.toDigits 10 (n + 1), Numeral.toList_ofInt_negSucc n, .inl rfl⟩

/-- No number can be taken for a blank, another value or the end of an array. -/
theorem front_of_number {c : Char} (h : c = '-' ∨ c.isDigit) :
    c ∉ [' ', '\t', '\n', '\r', 'n', 't', 'f', '"', '[', ']', '\x7b'] := by
  rcases h with rfl | h
  · decide
  · intro hc
    have hothers : ∀ d ∈ [' ', '\t', '\n', '\r', 'n', 't', 'f', '"', '[', ']', '\x7b'],
        d.isDigit = false := by simp
    rw [hothers c hc] at h
    cases h

/-- A text starts with a character that opens a value. -/
theorem Exact.text_front {json : Json} (h : json.Exact) :
    ∃ c cs, json.text.toList = c :: cs ∧ Reader.isBlank c = false ∧ c ≠ ']' := by
  cases h with
  | null => exact ⟨'n', ['u', 'l', 'l'], rfl, rfl, by decide⟩
  | bool b =>
    cases b with
    | false => exact ⟨'f', ['a', 'l', 's', 'e'], rfl, rfl, by decide⟩
    | true => exact ⟨'t', ['r', 'u', 'e'], rfl, rfl, by decide⟩
  | int hlow hhigh =>
    rename_i i
    obtain ⟨c, cs, htext, hc⟩ := ofInt_front i
    have hfront := front_of_number hc
    exact ⟨c, cs, htext, by simp_all [Reader.isBlank], by simp_all⟩
  | str s => exact ⟨'"', _, toList_stringText s, rfl, by decide⟩
  | arr _ => exact ⟨'[', _, toList_arr _, rfl, by decide⟩
  | obj _ => exact ⟨'\x7b', _, toList_obj _, rfl, by decide⟩

theorem skip_cons {c : Char} (h : Reader.isBlank c = false) (cs : List Char) :
    skip (c :: cs) = c :: cs := by
  simp [skip, h]

theorem readsBack_null : ReadsBack .null := by
  intro fuel depth rest _ _ _
  simp [text, value?, skip, Reader.isBlank]

theorem readsBack_bool (b : Bool) : ReadsBack (.bool b) := by
  intro fuel depth rest _ _ _
  cases b <;> simp [text, value?, skip, Reader.isBlank]

theorem readsBack_str (s : String) : ReadsBack (.str s) := by
  intro fuel depth rest _ _ _
  rw [text, toList_stringText]
  simp [value?, skip, Reader.isBlank, string?_stringText]

theorem readsBack_int {i : Int} (hlow : -9223372036854775808 ≤ i)
    (hhigh : i < 18446744073709551616) : ReadsBack (.int i) := by
  intro fuel depth rest _ _ hrest
  have hread := read?_ofInt hlow hhigh hrest
  obtain ⟨c, cs, htext, hc⟩ := ofInt_front i
  have hfront := front_of_number hc
  rw [text]
  rw [htext, List.cons_append] at hread ⊢
  rw [value?, skip_cons (by simp_all [Reader.isBlank])]
  split <;> simp_all

theorem items?_itemsText {items : List Json} (hne : items ≠ [])
    (hexact : ∀ item ∈ items, item.Exact) (hback : ∀ item ∈ items, ReadsBack item)
    (fuel depth : Nat) (rest : List Char)
    (hfuel : 2 * (itemsText items).toList.length + 1 ≤ fuel)
    (hdepth : depth + itemsDepth items ≤ depthLimit) :
    items? fuel depth ((itemsText items).toList ++ ']' :: rest) = some (items, rest) := by
  induction items generalizing fuel with
  | nil => exact absurd rfl hne
  | cons item items ih =>
    obtain ⟨c, cs, hfront, -⟩ := (hexact item (by simp)).text_front
    have hitem := hback item (by simp)
    simp only [itemsDepth] at hdepth
    cases items with
    | nil =>
      simp only [itemsText] at hfuel ⊢
      have hlength : 0 < item.text.toList.length := by simp [hfront]
      obtain ⟨fuel, rfl⟩ : ∃ n, fuel = n + 1 + 1 := ⟨fuel - 2, by omega⟩
      have hread := hitem fuel depth (']' :: rest) (by omega) (by omega) (by simp [Ends])
      simp [items?, hread, skip, Reader.isBlank]
    | cons next items =>
      have hlength : 0 < item.text.toList.length := by simp [hfront]
      have htext : (itemsText (item :: next :: items)).toList
          = item.text.toList ++ ',' :: (itemsText (next :: items)).toList := by
        simp [itemsText]
      rw [htext] at hfuel ⊢
      simp only [List.length_append, List.length_cons] at hfuel
      obtain ⟨fuel, rfl⟩ : ∃ n, fuel = n + 1 + 1 := ⟨fuel - 2, by omega⟩
      have hread := hitem fuel depth (',' :: ((itemsText (next :: items)).toList ++ ']' :: rest))
        (by omega) (by omega) (by simp [Ends])
      have hothers := ih (by simp) (fun item h => hexact item (by simp [h]))
        (fun item h => hback item (by simp [h])) (fuel + 1) (by omega) (by omega)
      rw [List.append_assoc, List.cons_append, items?, hread]
      simp [skip_cons, Reader.isBlank, hothers]

theorem fields?_fieldsText {fields : List (String × Json)} (hne : fields ≠ [])
    (hback : ∀ field ∈ fields, ReadsBack field.2) (fuel depth : Nat) (rest : List Char)
    (hfuel : 2 * (fieldsText fields).toList.length + 1 ≤ fuel)
    (hdepth : depth + fieldsDepth fields ≤ depthLimit) :
    fields? fuel depth ((fieldsText fields).toList ++ '\x7d' :: rest)
      = some (fields.map fun (name, value) => (some name, value), rest) := by
  induction fields generalizing fuel with
  | nil => exact absurd rfl hne
  | cons field fields ih =>
    obtain ⟨name, value⟩ := field
    have hvalue : ReadsBack value := hback (name, value) (by simp)
    have hcolon : ∀ cs, skip (':' :: cs) = ':' :: cs := skip_cons rfl
    have hquote : ∀ cs, skip ('"' :: cs) = '"' :: cs := skip_cons rfl
    simp only [fieldsDepth] at hdepth
    cases fields with
    | nil =>
      have htext : (fieldsText [(name, value)]).toList
          = '"' :: (name.toList.flatMap escapeChar ++ '"' :: ':' :: value.text.toList) := by
        simp [fieldsText, toList_stringText]
      rw [htext] at hfuel ⊢
      simp only [List.length_append, List.length_cons] at hfuel
      obtain ⟨fuel, rfl⟩ : ∃ n, fuel = n + 1 + 1 := ⟨fuel - 2, by omega⟩
      have hread := hvalue fuel depth ('\x7d' :: rest) (by omega) (by omega) (by simp [Ends])
      rw [List.cons_append, List.append_assoc, List.cons_append, List.cons_append, fields?, hquote]
      simp [string?_stringText, hcolon, hread, skip_cons, Reader.isBlank]
    | cons next fields =>
      have htext : (fieldsText ((name, value) :: next :: fields)).toList
          = '"' :: (name.toList.flatMap escapeChar ++ '"' :: ':' :: (value.text.toList
            ++ ',' :: (fieldsText (next :: fields)).toList)) := by
        simp [fieldsText, toList_stringText]
      rw [htext] at hfuel ⊢
      simp only [List.length_append, List.length_cons] at hfuel
      obtain ⟨fuel, rfl⟩ : ∃ n, fuel = n + 1 + 1 := ⟨fuel - 2, by omega⟩
      have hread := hvalue fuel depth
        (',' :: ((fieldsText (next :: fields)).toList ++ '\x7d' :: rest)) (by omega) (by omega)
        (by simp [Ends])
      have hothers := ih (by simp) (fun field h => hback field (by simp [h])) (fuel + 1) (by omega)
        (by omega)
      rw [List.cons_append, List.append_assoc, List.cons_append, List.cons_append,
        List.append_assoc, List.cons_append, fields?, hquote]
      simp [string?_stringText, hcolon, hread, skip_cons, Reader.isBlank, hothers]

theorem object_some (fields : List (String × Json)) :
    object (fields.map fun (name, value) => (some name, value)) = .obj fields := by
  rw [object, mapM_map_eq_some]
  rintro ⟨name, value⟩ -
  rfl

theorem nested_of_le {json : Json} {depth : Nat} (h : depth + json.depth ≤ depthLimit)
    (hpos : 0 < json.depth) : nested depth json = json := by
  rw [nested, if_pos (by omega)]

theorem itemsText_front {item : Json} (h : item.Exact) (items : List Json) :
    ∃ c cs, (itemsText (item :: items)).toList = c :: cs ∧ Reader.isBlank c = false ∧ c ≠ ']' := by
  obtain ⟨c, cs, htext, hc⟩ := h.text_front
  cases items with
  | nil => exact ⟨c, cs, htext, hc⟩
  | cons next items =>
    exact ⟨c, cs ++ ',' :: (itemsText (next :: items)).toList, by simp [itemsText, htext], hc⟩

theorem fieldsText_front (field : String × Json) (fields : List (String × Json)) :
    ∃ cs, (fieldsText (field :: fields)).toList = '"' :: cs := by
  cases fields <;> simp [fieldsText, toList_stringText]

theorem readsBack_arr {items : List Json} (hexact : ∀ item ∈ items, item.Exact)
    (hback : ∀ item ∈ items, ReadsBack item) : ReadsBack (.arr items) := by
  intro fuel depth rest hfuel hdepth _
  have hnested : nested depth (.arr items) = .arr items :=
    nested_of_le hdepth (by simp [Json.depth])
  rw [toList_arr] at hfuel ⊢
  simp only [List.length_append, List.length_cons, Json.depth] at hfuel hdepth
  rw [List.cons_append, List.append_assoc, List.cons_append, List.nil_append, value?,
    skip_cons rfl]
  cases items with
  | nil => simp [itemsText, skip_cons, Reader.isBlank, hnested]
  | cons item items =>
    obtain ⟨c, cs, htext, hblank, hc⟩ := itemsText_front (hexact item (by simp)) items
    have hread := items?_itemsText (by simp) hexact hback fuel (depth + 1) rest (by omega)
      (by omega)
    rw [htext, List.cons_append] at hread ⊢
    simp [skip_cons hblank, hc, hread, hnested]

theorem readsBack_obj {fields : List (String × Json)}
    (hback : ∀ field ∈ fields, ReadsBack field.2) : ReadsBack (.obj fields) := by
  intro fuel depth rest hfuel hdepth _
  have hnested : nested depth (.obj fields) = .obj fields :=
    nested_of_le hdepth (by simp [Json.depth])
  rw [toList_obj] at hfuel ⊢
  simp only [List.length_append, List.length_cons, Json.depth] at hfuel hdepth
  rw [List.cons_append, List.append_assoc, List.cons_append, List.nil_append, value?,
    skip_cons rfl]
  cases fields with
  | nil => simp [fieldsText, skip_cons, Reader.isBlank, hnested]
  | cons field fields =>
    obtain ⟨cs, htext⟩ := fieldsText_front field fields
    have hread := fields?_fieldsText (by simp) hback fuel (depth + 1) rest (by omega) (by omega)
    rw [htext, List.cons_append] at hread ⊢
    simp [skip_cons, Reader.isBlank, hread, hnested, object_some, -List.map_cons]

theorem Exact.readsBack {json : Json} (h : json.Exact) : ReadsBack json := by
  induction h with
  | null => exact readsBack_null
  | bool b => exact readsBack_bool b
  | int hlow hhigh => exact readsBack_int hlow hhigh
  | str s => exact readsBack_str s
  | arr hexact ih => exact readsBack_arr hexact ih
  | obj _ ih => exact readsBack_obj ih

theorem Exact.read?_text {json : Json} (h : json.Exact) (hdepth : json.depth ≤ depthLimit) :
    read? json.text = some json := by
  have hread := h.readsBack (2 * json.text.toList.length + 1) 0 [] (by omega) (by omega)
    (by simp [Ends])
  rw [List.append_nil] at hread
  rw [read?, hread, Option.bind_eq_bind, Option.bind_some]
  rfl

/-! ### How deep a text goes -/

theorem itemsDepth_le_iff {items : List Json} {n : Nat} :
    itemsDepth items ≤ n ↔ ∀ item ∈ items, item.depth ≤ n := by
  induction items with
  | nil => simp [itemsDepth]
  | cons item items ih => rw [itemsDepth, Nat.max_le, List.forall_mem_cons, ih]

theorem fieldsDepth_le_iff {fields : List (String × Json)} {n : Nat} :
    fieldsDepth fields ≤ n ↔ ∀ field ∈ fields, field.2.depth ≤ n := by
  induction fields with
  | nil => simp [fieldsDepth]
  | cons field fields ih => rw [fieldsDepth, Nat.max_le, List.forall_mem_cons, ih]

theorem depth_nested_le {depth : Nat} {container : Json}
    (h : container.depth ≤ depthLimit - (depth + 1) + 1) :
    (nested depth container).depth ≤ depthLimit - depth := by
  unfold nested
  split_ifs
  · omega
  · simp [Json.depth]

theorem depth_object_le {fields : List (Option String × Json)} {n : Nat}
    (h : ∀ field ∈ fields, field.2.depth ≤ n) : (object fields).depth ≤ n + 1 := by
  unfold object
  split
  · rename_i named hnamed
    rw [Json.depth, Nat.add_le_add_iff_right, fieldsDepth_le_iff]
    intro field hfield
    obtain ⟨⟨name, value⟩, hentry, heq⟩ := exists_of_mem_mapM hnamed hfield
    obtain ⟨name, -, rfl⟩ := Option.map_eq_some_iff.1 heq
    exact h _ hentry
  · simp [Json.depth]

theorem depth_float (token : Number.Token) : token.float.depth = 0 := by
  unfold Number.Token.float
  dsimp only
  split <;> rfl

theorem depth_number {cs rest : List Char} {json : Json}
    (h : Number.read? cs = some (json, rest)) : json.depth = 0 := by
  simp only [Number.read?, Option.map_eq_some_iff, Prod.mk.injEq] at h
  obtain ⟨⟨token, rest⟩, -, rfl, -⟩ := h
  unfold Number.Token.json
  dsimp only
  split_ifs <;> first | rfl | exact depth_float token

/-- What is read with some fuel goes no deeper than the limit allows. -/
structure WithinLimit (fuel : Nat) : Prop where
  value : ∀ {depth cs json rest}, value? fuel depth cs = some (json, rest) →
    json.depth ≤ depthLimit - depth
  items : ∀ {depth cs items rest}, items? fuel depth cs = some (items, rest) →
    ∀ item ∈ items, item.depth ≤ depthLimit - depth
  fields : ∀ {depth cs fields rest}, fields? fuel depth cs = some (fields, rest) →
    ∀ field ∈ fields, field.2.depth ≤ depthLimit - depth

section Limit

variable {fuel depth : Nat} {cs rest : List Char} (h : WithinLimit fuel)
include h

theorem WithinLimit.value_succ {json : Json}
    (hread : value? (fuel + 1) depth cs = some (json, rest)) :
    json.depth ≤ depthLimit - depth := by
  have hflat : json.depth = 0 → json.depth ≤ depthLimit - depth := by omega
  rw [value?] at hread
  split at hread
  · obtain ⟨rfl, rfl⟩ := Prod.mk.inj (Option.some.inj hread)
    exact hflat rfl
  · obtain ⟨rfl, rfl⟩ := Prod.mk.inj (Option.some.inj hread)
    exact hflat rfl
  · obtain ⟨rfl, rfl⟩ := Prod.mk.inj (Option.some.inj hread)
    exact hflat rfl
  · simp only [Option.bind_eq_bind, Option.bind_eq_some_iff] at hread
    obtain ⟨⟨s, cs'⟩, -, hread⟩ := hread
    obtain ⟨rfl, rfl⟩ := Prod.mk.inj (Option.some.inj hread)
    exact hflat (by cases s <;> rfl)
  · split at hread
    · obtain ⟨rfl, rfl⟩ := Prod.mk.inj (Option.some.inj hread)
      exact depth_nested_le (by simp [Json.depth, itemsDepth])
    · simp only [Option.bind_eq_bind, Option.bind_eq_some_iff] at hread
      obtain ⟨⟨items, cs'⟩, hitems, hread⟩ := hread
      obtain ⟨rfl, rfl⟩ := Prod.mk.inj (Option.some.inj hread)
      refine depth_nested_le ?_
      rw [Json.depth, Nat.add_le_add_iff_right, itemsDepth_le_iff]
      exact h.items hitems
  · split at hread
    · obtain ⟨rfl, rfl⟩ := Prod.mk.inj (Option.some.inj hread)
      exact depth_nested_le (by simp [Json.depth, fieldsDepth])
    · simp only [Option.bind_eq_bind, Option.bind_eq_some_iff] at hread
      obtain ⟨⟨fields, cs'⟩, hfields, hread⟩ := hread
      obtain ⟨rfl, rfl⟩ := Prod.mk.inj (Option.some.inj hread)
      exact depth_nested_le (depth_object_le (h.fields hfields))
  · exact hflat (depth_number hread)

theorem WithinLimit.items_succ {items : List Json}
    (hread : items? (fuel + 1) depth cs = some (items, rest)) :
    ∀ item ∈ items, item.depth ≤ depthLimit - depth := by
  rw [items?] at hread
  simp only [Option.bind_eq_bind, Option.bind_eq_some_iff] at hread
  obtain ⟨⟨item, cs'⟩, hitem, hread⟩ := hread
  split at hread
  · simp only [Option.bind_eq_some_iff] at hread
    obtain ⟨⟨others, rest⟩, hothers, hread⟩ := hread
    obtain ⟨rfl, rfl⟩ := Prod.mk.inj (Option.some.inj hread)
    exact List.forall_mem_cons.2 ⟨h.value hitem, h.items hothers⟩
  · obtain ⟨rfl, rfl⟩ := Prod.mk.inj (Option.some.inj hread)
    exact List.forall_mem_singleton.2 (h.value hitem)
  · cases hread

theorem WithinLimit.fields_succ {fields : List (Option String × Json)}
    (hread : fields? (fuel + 1) depth cs = some (fields, rest)) :
    ∀ field ∈ fields, field.2.depth ≤ depthLimit - depth := by
  rw [fields?] at hread
  split at hread
  · simp only [Option.bind_eq_bind, Option.bind_eq_some_iff] at hread
    obtain ⟨⟨name, cs'⟩, -, hread⟩ := hread
    split at hread
    · simp only [Option.bind_eq_some_iff] at hread
      obtain ⟨⟨value, cs''⟩, hvalue, hread⟩ := hread
      split at hread
      · simp only [Option.bind_eq_some_iff] at hread
        obtain ⟨⟨others, rest⟩, hothers, hread⟩ := hread
        obtain ⟨rfl, rfl⟩ := Prod.mk.inj (Option.some.inj hread)
        exact List.forall_mem_cons.2 ⟨h.value hvalue, h.fields hothers⟩
      · obtain ⟨rfl, rfl⟩ := Prod.mk.inj (Option.some.inj hread)
        exact List.forall_mem_singleton.2 (h.value hvalue)
      · cases hread
    · cases hread
  · cases hread

end Limit

theorem withinLimit (fuel : Nat) : WithinLimit fuel := by
  induction fuel with
  | zero =>
    refine ⟨?_, ?_, ?_⟩
    all_goals
      intro depth cs result rest h
      simp [value?, items?, fields?] at h
  | succ fuel ih => exact ⟨ih.value_succ, ih.items_succ, ih.fields_succ⟩

/-- A text that can be read holds no more containers inside each other than the limit allows. -/
theorem depth_le_of_read? {text : String} {json : Json} (h : read? text = some json) :
    json.depth ≤ depthLimit := by
  simp only [read?, Option.bind_eq_bind, Option.bind_eq_some_iff] at h
  obtain ⟨⟨value, rest⟩, hvalue, h⟩ := h
  split at h
  · obtain rfl := Option.some.inj h
    exact (withinLimit _).value hvalue
  · cases h

end EntityFlux.Json
