import EntityFlux.Flux.Document
import EntityFlux.Flux.Pipeline
import EntityFlux.Proofs.StringLiterals

/-!
# Lists of quoted names

The names of dropped columns stand in brackets, quoted, with a comma and a blank between two of
them. Whatever the names hold, the list is read back name by name (`readNames?_listText`), so no two
lists are written alike. It holds no control character, as long as all of those that have no escape
of their own are given by code point; which other characters are makes no difference.
-/

namespace EntityFlux.Flux

open Pipeline (listText)
open Text (Quoted.encodeChar Quoted.codePoint Quoted.isCoded quote)

/-! ## Reading lists -/

/-- Literals with a comma and a blank between two of them, up to the closing bracket. -/
def literals? : List Lexeme → Option (List String)
  | [.literal raw, .code ']'] => (decode raw).map fun value => [String.ofList value]
  | .literal raw :: .code ',' :: .code ' ' :: rest => do
    let value ← decode raw
    let others ← literals? rest
    some (String.ofList value :: others)
  | _ => none

/-- The strings that a list of literals in brackets stands for. -/
def readNames? (text : String) : Option (List String) :=
  match lex text with
  | [.code '[', .code ']'] => some []
  | .code '[' :: rest => literals? rest
  | _ => none

/-- The string that a text stands for which is one literal. -/
def readName? (text : String) : Option String :=
  match lex text with
  | [.literal raw] => (decode raw).map String.ofList
  | _ => none

section Reading

variable (coded : Char → Bool)

theorem readName?_quoteBy (name : String) : readName? (quoteBy coded name) = some name := by
  obtain ⟨-, raw, hlex, hdecode⟩ := lex_quoteBy coded name
  simp [readName?, hlex, hdecode]

theorem literals?_intercalate {names : List String} (hne : names ≠ []) :
    literals? (lex (", ".intercalate (names.map (quoteBy coded)) ++ "]")) = some names := by
  have hcomma : Closed ", " ∧ lex ", " = [.code ',', .code ' '] := by decide
  have hbracket : lex "]" = [.code ']'] := by decide
  induction names with
  | nil => exact absurd rfl hne
  | cons name names ih =>
    obtain ⟨hclosed, raw, hlex, hdecode⟩ := lex_quoteBy coded name
    cases names with
    | nil =>
      rw [List.map_singleton, String.intercalate_singleton, lex_append hclosed, hlex, hbracket]
      simp [literals?, hdecode]
    | cons next names =>
      have hrest := ih (by simp)
      rw [List.map_cons] at hrest
      rw [List.map_cons, List.map_cons, String.intercalate_cons_cons, String.append_assoc,
        lex_append (hclosed.append hcomma.1), lex_append hclosed, hlex, hcomma.2]
      simp [literals?, hdecode, hrest]

/-- A list of quoted names is read back as the names. -/
theorem readNames?_listText (names : List String) :
    readNames? (listText (names.map (quoteBy coded))) = some names := by
  have hopen : Closed "[" ∧ lex "[" = [.code '['] := by decide
  by_cases hne : names = []
  · have hnone : readNames? "[]" = some [] := by decide
    rw [hne]
    exact hnone
  · have hitems := literals?_intercalate coded hne
    unfold readNames?
    rw [listText, String.append_assoc, lex_append hopen.1, hopen.2, List.singleton_append]
    split
    · rename_i heq
      obtain ⟨-, hrest⟩ := List.cons.inj heq
      rw [hrest] at hitems
      cases hitems
    · rename_i heq
      obtain ⟨-, rfl⟩ := List.cons.inj heq
      exact hitems
    · rename_i hnot
      exact absurd rfl (hnot _)

theorem listText_injective :
    Function.Injective fun names : List String => listText (names.map (quoteBy coded)) := by
  intro names names' h
  have hread := readNames?_listText coded names
  rw [show listText (names.map (quoteBy coded)) = _ from h, readNames?_listText] at hread
  exact (Option.some.inj hread).symm

end Reading

/-! ## Control characters -/

/-- The general category Cc. -/
def IsControl (c : Char) : Prop := c.toNat < 0x20 ∨ 0x7f ≤ c.toNat ∧ c.toNat ≤ 0x9f

instance (c : Char) : Decidable (IsControl c) := inferInstanceAs (Decidable (_ ∨ _))

/-- Every control character is given by code point that has no escape of its own. -/
def CodesControls (coded : Char → Bool) : Prop :=
  ∀ c, IsControl c → c ∉ ['\x00', '\t', '\r', '\n'] → coded c

theorem codesControls_isCoded : CodesControls Quoted.isCoded := by
  intro c hc _
  have hunprintable : Text.isUnprintable c := by
    refine Text.CodePoints.has_iff.2 ?_
    rcases hc with hlow | ⟨hlow, hhigh⟩
    · exact ⟨(0x0, 0x1f), .head _, Nat.zero_le _, Nat.le_of_lt_succ hlow⟩
    · exact ⟨(0x7f, 0xa0), .tail _ (.head _), hlow, hhigh.trans (by decide)⟩
  simp [Quoted.isCoded, hunprintable]

theorem not_isControl_codePoint (c : Char) : ∀ d ∈ Quoted.codePoint c, ¬ IsControl d := by
  have hmarks : ∀ d ∈ ['\\', 'u', '\x7b'] ++ ['\x7d'], ¬ IsControl d := by
    simp [IsControl]
  have hdigit : ∀ n < 16, ¬ IsControl (Nat.digitChar n) := by decide +kernel
  obtain ⟨hopen, hclose⟩ := List.forall_mem_append.1 hmarks
  refine List.forall_mem_append.2 ⟨List.forall_mem_append.2 ⟨hopen, fun d hd => ?_⟩, hclose⟩
  obtain ⟨n, hn, rfl⟩ := mem_toDigits_hex hd
  exact hdigit n hn

section Controls

variable {coded : Char → Bool} (hcoded : CodesControls coded)
include hcoded

theorem not_isControl_encodeChar (c : Char) :
    ∀ d ∈ Quoted.encodeChar coded c, ¬ IsControl d := by
  unfold Quoted.encodeChar
  split_ifs with hnull htab hreturn hnewline hquote hslash hc
  · simp [IsControl]
  · simp [IsControl]
  · simp [IsControl]
  · simp [IsControl]
  · simp [IsControl]
  · simp [IsControl]
  · exact not_isControl_codePoint c
  · intro d hd hcontrol
    obtain rfl := List.mem_singleton.1 hd
    exact hc (hcoded d hcontrol (by simp [hnull, htab, hreturn, hnewline]))

theorem not_isControl_quoteBy (name : String) :
    ∀ c ∈ (quoteBy coded name).toList, ¬ IsControl c := by
  intro c hc
  simp only [quoteBy, String.toList_ofList, Text.Quoted.encode, List.mem_cons, List.mem_append,
    List.mem_flatMap, List.not_mem_nil, or_false] at hc
  rcases hc with rfl | ⟨d, -, hd⟩ | rfl
  · decide
  · exact not_isControl_encodeChar hcoded d c hd
  · decide

theorem not_isControl_listText (names : List String) :
    ∀ c ∈ (listText (names.map (quoteBy coded))).toList, ¬ IsControl c := by
  have happend : ∀ {a b : String}, (∀ c ∈ a.toList, ¬ IsControl c) →
      (∀ c ∈ b.toList, ¬ IsControl c) → ∀ c ∈ (a ++ b).toList, ¬ IsControl c := by
    intro a b ha hb
    rw [String.toList_append]
    exact List.forall_mem_append.2 ⟨ha, hb⟩
  have hitems : ∀ c ∈ (", ".intercalate (names.map (quoteBy coded))).toList, ¬ IsControl c :=
    intercalate_of_append (motive := fun text => ∀ c ∈ text.toList, ¬ IsControl c) (by simp)
      happend (by simp [IsControl]) (List.forall_mem_map.2 fun name _ => not_isControl_quoteBy hcoded name)
  exact happend (happend (by simp [IsControl]) hitems) (by simp [IsControl])

end Controls

/-- Whichever characters are given by code point, as long as the control characters without an
escape of their own are among them: a list of quoted names is read back as the names, it holds no
control character, no other list is written alike, and a quoted name is read back as the name. The
drop of a pipeline and the strings of a document are written so, with the characters that have no
glyph or merge with the one before them. -/
theorem quoted_names_read_back {coded : Char → Bool} (hcoded : CodesControls coded) :
    (∀ names : List String,
        readNames? ("[" ++ ", ".intercalate (names.map (quoteBy coded)) ++ "]") = some names
          ∧ ∀ c ∈ ("[" ++ ", ".intercalate (names.map (quoteBy coded)) ++ "]").toList,
            ¬ IsControl c)
      ∧ (∀ names names' : List String, "[" ++ ", ".intercalate (names.map (quoteBy coded)) ++ "]"
          = "[" ++ ", ".intercalate (names'.map (quoteBy coded)) ++ "]" → names = names')
      ∧ (∀ name, readName? (quoteBy coded name) = some name
        ∧ ∀ c ∈ (quoteBy coded name).toList, ¬ IsControl c)
      ∧ CodesControls Quoted.isCoded
      ∧ (∀ p : Pipeline, p.dropColumns ≠ [] → p.drop? = some ("drop(columns: " ++
        ("[" ++ ", ".intercalate (p.dropColumns.map (quoteBy Quoted.isCoded)) ++ "]") ++ ")"))
      ∧ ∀ name, (Node.string name).text = quoteBy Quoted.isCoded name
        ∧ readName? (Node.string name).text = some name := by
  refine ⟨fun names => ⟨readNames?_listText coded names, not_isControl_listText hcoded names⟩,
    fun names names' h => listText_injective coded h,
    fun name => ⟨readName?_quoteBy coded name, not_isControl_quoteBy hcoded name⟩,
    codesControls_isCoded, fun p hp => ?_,
    fun name => ⟨rfl, readName?_quoteBy Quoted.isCoded name⟩⟩
  rw [Pipeline.drop?, if_neg hp]
  rfl

/-- Names that look like the end of one name and the start of the next, and names that hold what has
to be escaped, with and without an escape of its own. -/
theorem quoted_names_read_back_sample :
    CodesControls (fun c => c.toNat ≤ 0x9f) ∧ readNames? ("[" ++ ", ".intercalate
        (["a\", \"b", "\\u\x7b22\x7d", "\n\x7f", ""].map (quoteBy fun c => c.toNat ≤ 0x9f)) ++ "]")
      = some ["a\", \"b", "\\u\x7b22\x7d", "\n\x7f", ""] := by
  have hcoded : CodesControls (fun c => c.toNat ≤ 0x9f) := by
    intro c hc _
    unfold IsControl at hc
    simp only [decide_eq_true_eq]
    omega
  exact ⟨hcoded, ((quoted_names_read_back hcoded).1 _).1⟩

end EntityFlux.Flux
