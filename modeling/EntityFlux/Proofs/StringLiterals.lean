import EntityFlux.Proofs.Lexemes
import EntityFlux.Text.Numeral
import EntityFlux.Text.Quoted
import Mathlib

/-!
# String literals

What a string literal stands for. Any string can be quoted: with its escapes it is one literal that
stands for it (`lex_quote`, `decode_encode`). A string that is put between two quotes as it is reads
as itself exactly if it holds neither a quote nor a backslash (`decode_plain`, `plain_of_reads`).
-/

namespace EntityFlux.Flux

open Text (Quoted.encodeChar Quoted.codePoint Quoted.isCoded quote)
open Text.Numeral (hexDigit?)

/-! ## Values -/

/-- Where a reader of escapes stands: between two characters, behind a backslash, behind `\u`, or
among the digits of a code point. -/
inductive Escape where
  | between
  | backslash
  | unicode
  | digits (value : Nat)

def escaped? : Char → Option Char
  | '0' => some '\x00'
  | 't' => some '\t'
  | 'r' => some '\r'
  | 'n' => some '\n'
  | '"' => some '"'
  | '\\' => some '\\'
  | _ => none

def scalar? (n : Nat) : Option Char := if n.isValidChar then some (Char.ofNat n) else none

def decodeFrom : Escape → List Char → Option (List Char)
  | .between, [] => some []
  | _, [] => none
  | .between, c :: cs =>
    if c = '\\' then decodeFrom .backslash cs
    else if c = '"' then none
    else (decodeFrom .between cs).map (c :: ·)
  | .backslash, c :: cs =>
    if c = 'u' then decodeFrom .unicode cs
    else (escaped? c).bind fun d => (decodeFrom .between cs).map (d :: ·)
  | .unicode, c :: cs => if c = '\x7b' then decodeFrom (.digits 0) cs else none
  | .digits n, c :: cs =>
    if c = '\x7d' then (scalar? n).bind fun d => (decodeFrom .between cs).map (d :: ·)
    else (hexDigit? c).bind fun d => decodeFrom (.digits (16 * n + d)) cs

/-- The string that a literal stands for, if all its escapes can be read. -/
def decode (raw : List Char) : Option (List Char) := decodeFrom .between raw

/-- What a literal stands for; nothing for one that is not closed or has escapes of no meaning. -/
def Lexeme.value? : Lexeme → Option (Option String)
  | .code _ => none
  | .literal raw => some ((decode raw).map String.ofList)
  | .unclosed _ => some none

/-- What the string literals stand for, from left to right. -/
def values (lexemes : List Lexeme) : List (Option String) := lexemes.filterMap Lexeme.value?

@[simp] theorem values_append (a b : List Lexeme) : values (a ++ b) = values a ++ values b :=
  List.filterMap_append

@[simp] theorem values_code (cs : List Char) : values (cs.map .code) = [] := by
  simp [values, List.filterMap_map, Function.comp_def, Lexeme.value?]

/-- Neither a quote nor a backslash. -/
def IsPlain (text : String) : Prop := '"' ∉ text.toList ∧ '\\' ∉ text.toList

instance (text : String) : Decidable (IsPlain text) := inferInstanceAs (Decidable (_ ∧ _))

section Decoding

variable {state : Escape} {raw value : List Char}

/-- One value of a character may be written with many characters, but not the other way round. -/
theorem decodeFrom_length (h : decodeFrom state raw = some value) : value.length ≤ raw.length := by
  induction raw generalizing state value with
  | nil => cases state <;> simp_all [decodeFrom]
  | cons c cs ih =>
    cases state with
    | between =>
      simp only [decodeFrom] at h
      split_ifs at h
      · exact (ih h).trans (Nat.le_succ _)
      · obtain ⟨rest, hr, rfl⟩ := Option.map_eq_some_iff.1 h
        exact Nat.succ_le_succ (ih hr)
    | backslash =>
      simp only [decodeFrom] at h
      split_ifs at h
      · exact (ih h).trans (Nat.le_succ _)
      · obtain ⟨d, -, h⟩ := Option.bind_eq_some_iff.1 h
        obtain ⟨rest, hr, rfl⟩ := Option.map_eq_some_iff.1 h
        exact Nat.succ_le_succ (ih hr)
    | unicode =>
      simp only [decodeFrom] at h
      split_ifs at h
      exact (ih h).trans (Nat.le_succ _)
    | digits n =>
      simp only [decodeFrom] at h
      split_ifs at h
      · obtain ⟨d, -, h⟩ := Option.bind_eq_some_iff.1 h
        obtain ⟨rest, hr, rfl⟩ := Option.map_eq_some_iff.1 h
        exact Nat.succ_le_succ (ih hr)
      · obtain ⟨d, -, h⟩ := Option.bind_eq_some_iff.1 h
        exact (ih h).trans (Nat.le_succ _)

/-- A quote is written with a quote or by its code point, and a written quote stands for one. -/
theorem decodeFrom_count (h : decodeFrom state raw = some value) :
    raw.count '"' ≤ value.count '"' := by
  induction raw generalizing state value with
  | nil => simp
  | cons c cs ih =>
    cases state with
    | between =>
      simp only [decodeFrom] at h
      split_ifs at h with hb hq
      · rw [hb, List.count_cons_of_ne (by decide)]
        exact ih h
      · obtain ⟨rest, hr, rfl⟩ := Option.map_eq_some_iff.1 h
        rw [List.count_cons_of_ne hq, List.count_cons_of_ne hq]
        exact ih hr
    | backslash =>
      simp only [decodeFrom] at h
      split_ifs at h with hu
      · rw [hu, List.count_cons_of_ne (by decide)]
        exact ih h
      · obtain ⟨d, hd, h⟩ := Option.bind_eq_some_iff.1 h
        obtain ⟨rest, hr, rfl⟩ := Option.map_eq_some_iff.1 h
        by_cases hq : c = '"'
        · obtain rfl : '"' = d := by simpa [hq, escaped?] using hd
          rw [hq, List.count_cons_self, List.count_cons_self]
          exact Nat.succ_le_succ (ih hr)
        · rw [List.count_cons_of_ne hq]
          exact (ih hr).trans (List.count_le_count_cons)
    | unicode =>
      simp only [decodeFrom] at h
      split_ifs at h with ho
      rw [ho, List.count_cons_of_ne (by decide)]
      exact ih h
    | digits n =>
      simp only [decodeFrom] at h
      split_ifs at h with hc
      · obtain ⟨d, -, h⟩ := Option.bind_eq_some_iff.1 h
        obtain ⟨rest, hr, rfl⟩ := Option.map_eq_some_iff.1 h
        rw [hc, List.count_cons_of_ne (by decide)]
        exact (ih hr).trans (List.count_le_count_cons)
      · obtain ⟨d, hd, h⟩ := Option.bind_eq_some_iff.1 h
        have hq : c ≠ '"' := by
          rintro rfl
          simp [hexDigit?] at hd
        rw [List.count_cons_of_ne hq]
        exact ih h

theorem decode_length_lt (h : decode raw = some value) (hb : '\\' ∈ raw) :
    value.length < raw.length := by
  unfold decode at h
  induction raw generalizing value with
  | nil => simp at hb
  | cons c cs ih =>
    simp only [decodeFrom] at h
    split_ifs at h with hc
    · exact Nat.lt_succ_of_le (decodeFrom_length h)
    · obtain ⟨rest, hr, rfl⟩ := Option.map_eq_some_iff.1 h
      have hmem : '\\' ∈ cs := (List.mem_cons.1 hb).resolve_left (Ne.symm hc)
      exact Nat.succ_lt_succ (ih hr hmem)

theorem no_quote_of_decode (h : decode raw = some value) (hb : '\\' ∉ raw) : '"' ∉ raw := by
  unfold decode at h
  induction raw generalizing value with
  | nil => simp
  | cons c cs ih =>
    simp only [List.mem_cons, not_or] at hb
    simp only [decodeFrom, if_neg (Ne.symm hb.1)] at h
    split_ifs at h with hq
    obtain ⟨rest, hr, rfl⟩ := Option.map_eq_some_iff.1 h
    simp only [List.mem_cons, not_or]
    exact ⟨Ne.symm hq, ih hr hb.2⟩

theorem decode_plain (hq : '"' ∉ raw) (hb : '\\' ∉ raw) : decode raw = some raw := by
  unfold decode
  induction raw with
  | nil => rfl
  | cons c cs ih =>
    simp only [List.mem_cons, not_or] at hq hb
    rw [decodeFrom, if_neg (Ne.symm hb.1), if_neg (Ne.symm hq.1), ih hq.2 hb.2, Option.map_some]

end Decoding

/-! ## Literals in a text -/

/-- What can stand between two quotes: a quote or a backslash only behind a backslash. -/
inductive Body : List Char → Prop
  | nil : Body []
  | char {c : Char} {cs : List Char} : c ≠ '"' → c ≠ '\\' → Body cs → Body (c :: cs)
  | escape {c : Char} {cs : List Char} : Body cs → Body ('\\' :: c :: cs)

section Bodies

variable {raw other : List Char}

theorem Body.append (h : Body raw) (hother : Body other) : Body (raw ++ other) := by
  induction h with
  | nil => exact hother
  | char hq hb _ ih => exact .char hq hb ih
  | escape _ ih => exact .escape ih

theorem body_of_plain (hq : '"' ∉ raw) (hb : '\\' ∉ raw) : Body raw := by
  induction raw with
  | nil => exact .nil
  | cons c cs ih =>
    simp only [List.mem_cons, not_or] at hq hb
    exact .char (Ne.symm hq.1) (Ne.symm hb.1) (ih hq.2 hb.2)

theorem Body.scan_quoted (h : Body raw) (rest : List Char) :
    scan .quoted (raw ++ '"' :: rest) = .literal raw :: scan .code rest := by
  induction h with
  | nil => rfl
  | char hq hb _ ih => rw [List.cons_append, scan, if_neg hq, if_neg hb, ih, extend]
  | escape _ ih =>
    rw [List.cons_append, List.cons_append, scan, if_neg (by decide), if_pos rfl, scan, ih, extend,
      extend]

theorem Body.mode (h : Body raw) : raw.foldl Mode.next .quoted = .quoted := by
  induction h with
  | nil => rfl
  | char hq hb _ ih => rw [List.foldl_cons, Mode.next, if_neg hq, if_neg hb, ih]
  | escape _ ih =>
    rw [List.foldl_cons, List.foldl_cons, Mode.next, if_neg (by decide), if_pos rfl, Mode.next, ih]

/-- A body between quotes is one literal, by itself. -/
theorem Body.lex_quoted (h : Body raw) {text : String}
    (ht : text.toList = '"' :: (raw ++ ['"'])) : Closed text ∧ lex text = [.literal raw] := by
  refine ⟨?_, ?_⟩
  · unfold Closed
    rw [ht, List.foldl_cons, List.foldl_append]
    simp [Mode.next, h.mode]
  · rw [lex, ht, scan, if_pos rfl, h.scan_quoted]
    rfl

end Bodies

section Digits

variable {n : Nat} {c : Char}

theorem mem_toDigits_hex (h : c ∈ Nat.toDigits 16 n) : ∃ d < 16, c = Nat.digitChar d := by
  induction n using Nat.strongRecOn with
  | ind n ih =>
    rw [Nat.toDigits_eq_if (by decide)] at h
    split_ifs at h with hn
    · exact ⟨n, hn, List.mem_singleton.1 h⟩
    · rcases List.mem_append.1 h with h | h
      · exact ih (n / 16) (by omega) h
      · exact ⟨n % 16, Nat.mod_lt _ (by decide), List.mem_singleton.1 h⟩

theorem decodeFrom_digit {d : Nat} (hd : d < 16) (value : Nat) (rest : List Char) :
    decodeFrom (.digits value) (Nat.digitChar d :: rest)
      = decodeFrom (.digits (16 * value + d)) rest := by
  have hdigit : ∀ d < 16, Nat.digitChar d ≠ '\x7d' ∧ hexDigit? (Nat.digitChar d) = some d := by
    decide
  rw [decodeFrom, if_neg (hdigit d hd).1, (hdigit d hd).2, Option.bind_some]

/-- The digits of a number are read as the number. -/
theorem decodeFrom_toDigits (n : Nat) (rest : List Char) :
    decodeFrom (.digits 0) (Nat.toDigits 16 n ++ rest) = decodeFrom (.digits n) rest := by
  induction n using Nat.strongRecOn generalizing rest with
  | ind n ih =>
    rw [Nat.toDigits_eq_if (by decide)]
    split_ifs with hn
    · rw [List.singleton_append, decodeFrom_digit hn, Nat.mul_zero, Nat.zero_add]
    · rw [List.append_assoc, List.singleton_append, ih (n / 16) (by omega),
        decodeFrom_digit (Nat.mod_lt _ (by decide)), Nat.div_add_mod]

end Digits

section Quoting

variable (coded : Char → Bool) (c : Char)

theorem body_codePoint : Body (Quoted.codePoint c) := by
  have hdigits : ∀ d ∈ Nat.toDigits 16 c.toNat, d ≠ '"' ∧ d ≠ '\\' := by
    intro d hd
    obtain ⟨m, -, rfl⟩ := mem_toDigits_hex hd
    exact ⟨Nat.digitChar_ne _ rfl, Nat.digitChar_ne _ rfl⟩
  refine .escape (.char (by decide) (by decide) (Body.append ?_ ?_))
  · exact body_of_plain (fun h => (hdigits _ h).1 rfl) (fun h => (hdigits _ h).2 rfl)
  · exact .char (by decide) (by decide) .nil

theorem body_encodeChar : Body (Quoted.encodeChar coded c) := by
  unfold Quoted.encodeChar
  split_ifs with h₁ h₂ h₃ h₄ hq hb
  · exact .escape .nil
  · exact .escape .nil
  · exact .escape .nil
  · exact .escape .nil
  · exact .escape .nil
  · exact .escape .nil
  · exact body_codePoint c
  · exact .char hq hb .nil

theorem body_encode (cs : List Char) : Body (cs.flatMap (Quoted.encodeChar coded)) := by
  induction cs with
  | nil => exact .nil
  | cons c cs ih =>
    rw [List.flatMap_cons]
    exact (body_encodeChar coded c).append ih

theorem decode_codePoint (rest : List Char) :
    decodeFrom .between (Quoted.codePoint c ++ rest)
      = (decodeFrom .between rest).map (c :: ·) := by
  have hscalar : scalar? c.toNat = some c := by
    have hvalid : c.toNat.isValidChar := c.valid
    rw [scalar?, if_pos hvalid, Char.ofNat_toNat]
  have hopen : decodeFrom .between (Quoted.codePoint c ++ rest)
      = decodeFrom (.digits 0) (Nat.toDigits 16 c.toNat ++ '\x7d' :: rest) := by
    simp [Quoted.codePoint, decodeFrom]
  rw [hopen, decodeFrom_toDigits, decodeFrom, if_pos rfl, hscalar, Option.bind_some]

/-- A character is read back from the way it is written. -/
theorem decode_encodeChar (rest : List Char) :
    decodeFrom .between (Quoted.encodeChar coded c ++ rest)
      = (decodeFrom .between rest).map (c :: ·) := by
  unfold Quoted.encodeChar
  split_ifs with h₁ h₂ h₃ h₄ hq hb
  · rw [h₁]; rfl
  · rw [h₂]; rfl
  · rw [h₃]; rfl
  · rw [h₄]; rfl
  · rw [hq]; rfl
  · rw [hb]; rfl
  · exact decode_codePoint c rest
  · rw [List.singleton_append, decodeFrom, if_neg hb, if_neg hq]

theorem decode_encode (cs : List Char) :
    decode (cs.flatMap (Quoted.encodeChar coded)) = some cs := by
  unfold decode
  induction cs with
  | nil => rfl
  | cons c cs ih => rw [List.flatMap_cons, decode_encodeChar, ih, Option.map_some]

end Quoting

section Reading

variable {text : String}

/-- A quoted string, if `coded` says which characters are given by code point. -/
def quoteBy (coded : Char → Bool) (text : String) : String :=
  String.ofList (Text.Quoted.encode coded text.toList)

/-- A quoted string is one literal, and stands for the string. -/
theorem lex_quoteBy (coded : Char → Bool) (text : String) :
    Closed (quoteBy coded text) ∧ ∃ raw, lex (quoteBy coded text) = [.literal raw]
      ∧ decode raw = some text.toList := by
  have hbody := body_encode coded text.toList
  have htext : (quoteBy coded text).toList
      = '"' :: (text.toList.flatMap (Quoted.encodeChar coded) ++ ['"']) := by
    simp [quoteBy, Text.Quoted.encode]
  obtain ⟨hclosed, hlex⟩ := hbody.lex_quoted htext
  exact ⟨hclosed, _, hlex, decode_encode coded text.toList⟩

theorem lex_quote (text : String) :
    Closed (quote text) ∧ ∃ raw, lex (quote text) = [.literal raw]
      ∧ Lexeme.value? (.literal raw) = some (some text) := by
  obtain ⟨hclosed, raw, hlex, hdecode⟩ := lex_quoteBy Quoted.isCoded text
  refine ⟨hclosed, raw, hlex, ?_⟩
  rw [Lexeme.value?, hdecode, Option.map_some, String.ofList_toList]

/-- Text that closes where its value does holds no escapes: with one in it the value would be
shorter than the text, or hold one quote more. -/
theorem plain_of_decode {raw value tail rest : List Char} (h : decode raw = some value)
    (hs : raw ++ '"' :: tail = value ++ '"' :: rest) : '"' ∉ value ∧ '\\' ∉ value := by
  have hlength := decodeFrom_length h
  have hcount := decodeFrom_count h
  have hraw : raw = value := by
    rcases List.append_eq_append_iff.1 hs with ⟨more, hm, -⟩ | ⟨more, hm, hr⟩
    · rw [hm, List.length_append] at hlength
      have hnil : more = [] := List.length_eq_zero_iff.1 (by omega)
      rw [hm, hnil, List.append_nil]
    · cases more with
      | nil => rw [hm, List.append_nil]
      | cons c more =>
        obtain ⟨rfl, -⟩ := List.cons.inj hr
        rw [hm, List.count_append, List.count_cons_self] at hcount
        omega
  rw [hraw] at h
  have hb : '\\' ∉ value := fun hb => (decode_length_lt h hb).ne rfl
  exact ⟨no_quote_of_decode h hb, hb⟩

/-- Where the literal that opens in front of a string and a quote stands for that string, the string
is plain. -/
theorem plain_of_reads {rest : List Char}
    (h : (values (scan .quoted (text.toList ++ '"' :: rest))).head? = some (some text)) :
    IsPlain text := by
  have htext := text_scan .quoted (text.toList ++ '"' :: rest)
  rw [if_neg (by simp)] at htext
  have hmode : Mode.quoted ≠ .code := by simp
  obtain ⟨raw, lexemes, hs | hs⟩ := scan_front hmode (text.toList ++ '"' :: rest)
  · rw [hs] at h htext
    obtain ⟨value, hv, ht⟩ : ∃ value, decode raw = some value ∧ String.ofList value = text := by
      simpa [values, Lexeme.value?] using h
    obtain rfl : value = text.toList := by rw [← ht, String.toList_ofList]
    have hsplit : raw ++ '"' :: lexemes.flatMap Lexeme.text = text.toList ++ '"' :: rest := by
      simpa [Lexeme.text] using htext
    exact plain_of_decode hv hsplit
  · rw [hs] at h
    simp [values, Lexeme.value?] at h

end Reading

end EntityFlux.Flux
