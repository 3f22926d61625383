import Mathlib.Data.List.Basic

/-!
# Lexemes

Flux text as its reader sees it: characters that stand for themselves, and string literals in double
quotes, in which a backslash takes the next character with it. Reading loses nothing (`text_scan`),
and a text that ends outside of its literals reads the same whatever follows it (`lex_append`). So
the words of a text that is put together from such pieces are the words of the pieces, and a text
that was joined with ` |> ` is cut where it was joined (`cutText_intercalate`).
-/

namespace EntityFlux.Flux

inductive Lexeme where
  /-- A character outside of all string literals. -/
  | code (c : Char)
  /-- A string literal, by what stands between its quotes as it is written there. -/
  | literal (raw : List Char)
  /-- A string literal that the text does not close. -/
  | unclosed (raw : List Char)
deriving DecidableEq, Repr

def Lexeme.text : Lexeme → List Char
  | .code c => [c]
  | .literal raw => '"' :: (raw ++ ['"'])
  | .unclosed raw => '"' :: raw

/-- Where a reader stands: outside of a string literal, inside one, or inside one and behind a
backslash. -/
inductive Mode where
  | code
  | quoted
  | escaped
deriving DecidableEq, Repr

def Mode.next : Mode → Char → Mode
  | .code, c => if c = '"' then .quoted else .code
  | .quoted, c => if c = '"' then .code else if c = '\\' then .escaped else .quoted
  | .escaped, _ => .quoted

/-- Puts a character at the front of the literal that comes first. -/
def extend (c : Char) : List Lexeme → List Lexeme
  | .literal raw :: rest => .literal (c :: raw) :: rest
  | .unclosed raw :: rest => .unclosed (c :: raw) :: rest
  | rest => rest

/-- Reads on from a mode. Inside a literal, what is left of the literal comes first. -/
def scan : Mode → List Char → List Lexeme
  | .code, [] => []
  | .quoted, [] => [.unclosed []]
  | .escaped, [] => [.unclosed []]
  | .code, c :: cs => if c = '"' then scan .quoted cs else .code c :: scan .code cs
  | .quoted, c :: cs =>
    if c = '"' then .literal [] :: scan .code cs
    else if c = '\\' then extend c (scan .escaped cs)
    else extend c (scan .quoted cs)
  | .escaped, c :: cs => extend c (scan .quoted cs)

def lex (text : String) : List Lexeme := scan .code text.toList

section Scanning

variable {mode : Mode} {c : Char} {cs rest : List Char} {lexemes : List Lexeme}

theorem extend_append (h : lexemes ≠ []) (more : List Lexeme) :
    extend c (lexemes ++ more) = extend c lexemes ++ more := by
  rcases lexemes with _ | ⟨_ | _ | _, _⟩
  · exact absurd rfl h
  · rfl
  · rfl
  · rfl

/-- Inside a literal there is a literal to come. -/
theorem scan_front (h : mode ≠ .code) (cs : List Char) :
    ∃ raw rest, scan mode cs = .literal raw :: rest ∨ scan mode cs = .unclosed raw :: rest := by
  induction cs generalizing mode with
  | nil =>
    cases mode with
    | code => exact absurd rfl h
    | quoted => exact ⟨[], [], .inr rfl⟩
    | escaped => exact ⟨[], [], .inr rfl⟩
  | cons c cs ih =>
    have hextend : ∀ {m : Mode}, m ≠ .code → ∃ raw rest,
        extend c (scan m cs) = .literal raw :: rest
          ∨ extend c (scan m cs) = .unclosed raw :: rest := by
      intro m hm
      obtain ⟨raw, rest, hs | hs⟩ := ih hm
      · exact ⟨c :: raw, rest, .inl (by rw [hs, extend])⟩
      · exact ⟨c :: raw, rest, .inr (by rw [hs, extend])⟩
    cases mode with
    | code => exact absurd rfl h
    | quoted =>
      rw [scan]
      split_ifs
      · exact ⟨[], _, .inl rfl⟩
      · exact hextend (by simp)
      · exact hextend (by simp)
    | escaped => exact hextend (by simp)

theorem scan_ne_nil (h : mode ≠ .code) (cs : List Char) : scan mode cs ≠ [] := by
  obtain ⟨raw, rest, hs | hs⟩ := scan_front h cs <;> simp [hs]

theorem text_extend (h : mode ≠ .code) (hs : (scan mode cs).flatMap Lexeme.text = '"' :: cs) :
    (extend c (scan mode cs)).flatMap Lexeme.text = '"' :: c :: cs := by
  obtain ⟨raw, rest, hf | hf⟩ := scan_front h cs <;> rw [hf] at hs ⊢ <;>
    simpa [extend, Lexeme.text] using hs

/-- The lexemes, one behind the other, are the text again. Inside a literal the reader still holds
its opening quote. -/
theorem text_scan (mode : Mode) (cs : List Char) :
    (scan mode cs).flatMap Lexeme.text = if mode = .code then cs else '"' :: cs := by
  induction cs generalizing mode with
  | nil => cases mode <;> rfl
  | cons c cs ih =>
    have hcode : (scan .code cs).flatMap Lexeme.text = cs := ih .code
    have hquoted : (scan .quoted cs).flatMap Lexeme.text = '"' :: cs := ih .quoted
    have hescaped : (scan .escaped cs).flatMap Lexeme.text = '"' :: cs := ih .escaped
    cases mode with
    | code =>
      rw [if_pos rfl]
      by_cases hc : c = '"'
      · rw [scan, if_pos hc, hquoted, hc]
      · rw [scan, if_neg hc, List.flatMap_cons, hcode]
        rfl
    | quoted =>
      rw [if_neg (by simp)]
      by_cases hc : c = '"'
      · rw [scan, if_pos hc, List.flatMap_cons, hcode, hc]
        rfl
      · rw [scan, if_neg hc]
        split
        · exact text_extend (by simp) hescaped
        · exact text_extend (by simp) hquoted
    | escaped => exact text_extend (by simp) hquoted

/-- What is read to its end outside of a literal is read apart from what follows. -/
theorem scan_append (h : cs.foldl Mode.next mode = .code) (rest : List Char) :
    scan mode (cs ++ rest) = scan mode cs ++ scan .code rest := by
  induction cs generalizing mode with
  | nil =>
    obtain rfl : mode = .code := h
    rfl
  | cons c cs ih =>
    rw [List.foldl_cons] at h
    rw [List.cons_append]
    cases mode with
    | code =>
      simp only [scan, Mode.next] at h ⊢
      split_ifs with hc
      · rw [if_pos hc] at h
        exact ih h
      · rw [if_neg hc] at h
        rw [ih h, List.cons_append]
    | quoted =>
      simp only [scan, Mode.next] at h ⊢
      split_ifs with hc hb
      · rw [if_pos hc] at h
        rw [ih h, List.cons_append]
      · rw [if_neg hc, if_pos hb] at h
        rw [ih h, extend_append (scan_ne_nil (by simp) cs)]
      · rw [if_neg hc, if_neg hb] at h
        rw [ih h, extend_append (scan_ne_nil (by simp) cs)]
    | escaped =>
      simp only [scan, Mode.next] at h ⊢
      rw [ih h, extend_append (scan_ne_nil (by simp) cs)]

end Scanning

/-- A text that ends outside of its string literals. -/
def Closed (text : String) : Prop := text.toList.foldl Mode.next .code = .code

instance (text : String) : Decidable (Closed text) :=
  inferInstanceAs (Decidable (_ = Mode.code))

section Closed

variable {a b sep : String} {texts : List String}

/-- What holds of two texts one behind the other if it holds of both, holds of joined texts. -/
theorem intercalate_of_append {motive : String → Prop} (empty : motive "")
    (append : ∀ {a b}, motive a → motive b → motive (a ++ b)) (hsep : motive sep)
    (h : ∀ text ∈ texts, motive text) : motive (sep.intercalate texts) := by
  induction texts with
  | nil => exact empty
  | cons text texts ih =>
    have htext := h text List.mem_cons_self
    have htexts := ih fun t ht => h t (List.mem_cons_of_mem _ ht)
    cases texts with
    | nil => rwa [String.intercalate_singleton]
    | cons next texts =>
      rw [String.intercalate_cons_cons]
      exact append (append htext hsep) htexts

theorem Closed.append (ha : Closed a) (hb : Closed b) : Closed (a ++ b) := by
  unfold Closed at ha hb ⊢
  rw [String.toList_append, List.foldl_append, ha, hb]

theorem lex_append (ha : Closed a) (b : String) : lex (a ++ b) = lex a ++ lex b := by
  rw [lex, String.toList_append, scan_append ha]
  rfl

theorem closed_intercalate (hsep : Closed sep) (h : ∀ text ∈ texts, Closed text) :
    Closed (sep.intercalate texts) :=
  intercalate_of_append rfl Closed.append hsep h

theorem lex_intercalate (hsep : Closed sep) (h : ∀ text ∈ texts, Closed text) :
    lex (sep.intercalate texts) = (lex sep).intercalate (texts.map lex) := by
  induction texts with
  | nil => rfl
  | cons text texts ih =>
    have htext := h text List.mem_cons_self
    have htexts := ih fun t ht => h t (List.mem_cons_of_mem _ ht)
    cases texts with
    | nil => simp [String.intercalate_singleton]
    | cons next texts =>
      rw [String.intercalate_cons_cons, lex_append (htext.append hsep), lex_append htext, htexts]
      simp only [List.map_cons, List.intercalate_cons_cons]

theorem closed_of_no_quote (h : '"' ∉ a.toList) : Closed a := by
  unfold Closed
  generalize a.toList = cs at h ⊢
  induction cs with
  | nil => rfl
  | cons c cs ih =>
    simp only [List.mem_cons, not_or] at h
    rw [List.foldl_cons, Mode.next, if_neg (Ne.symm h.1), ih h.2]

theorem lex_of_no_quote (h : '"' ∉ a.toList) : lex a = a.toList.map .code := by
  unfold lex
  generalize a.toList = cs at h ⊢
  induction cs with
  | nil => rfl
  | cons c cs ih =>
    simp only [List.mem_cons, not_or] at h
    rw [scan, if_neg (Ne.symm h.1), ih h.2, List.map_cons]

end Closed

/-! ## Words -/

def isLetter (c : Char) : Bool := c.isAlphanum || c = '_'

def Lexeme.letter? : Lexeme → Option Char
  | .code c => if isLetter c then some c else none
  | _ => none

/-- The longest runs of letters, digits and underscores outside of string literals. -/
def words (lexemes : List Lexeme) : List (List Char) :=
  ((lexemes.splitOnP (·.letter?.isNone)).map (·.filterMap Lexeme.letter?)).filter (· ≠ [])

def wordsOf (text : String) : List String := (words (lex text)).map String.ofList

section Words

variable {a b : List Lexeme} {lexeme : Lexeme}

@[simp] theorem words_nil : words [] = [] := rfl

theorem words_append_cons (h : lexeme.letter? = none) (a b : List Lexeme) :
    words (a ++ lexeme :: b) = words a ++ words b := by
  unfold words
  rw [List.splitOnP_append_cons a b (by simp [h]), List.map_append, List.filter_append]

/-- Two words run together only where a letter meets a letter. -/
theorem words_append_of_last (h : a.getLast?.bind Lexeme.letter? = none) (b : List Lexeme) :
    words (a ++ b) = words a ++ words b := by
  rcases List.eq_nil_or_concat a with rfl | ⟨start, last, rfl⟩
  · rfl
  · rw [List.concat_eq_append] at h ⊢
    simp only [List.getLast?_append, List.getLast?_singleton, Option.some_or, Option.bind_some] at h
    have hstart := words_append_cons h start []
    rw [List.append_assoc, List.singleton_append, words_append_cons h, hstart, words_nil,
      List.append_nil]

theorem words_append_of_head (h : b.head?.bind Lexeme.letter? = none) (a : List Lexeme) :
    words (a ++ b) = words a ++ words b := by
  cases b with
  | nil => simp
  | cons first b =>
    have hb := words_append_cons h [] b
    rw [List.nil_append, words_nil, List.nil_append] at hb
    rw [words_append_cons h, hb]

theorem words_of_letters {cs : List Char} (hne : cs ≠ [])
    (h : ∀ c ∈ cs, isLetter c) : words (cs.map .code) = [cs] := by
  have hletter : ∀ c ∈ cs, Lexeme.letter? (.code c) = some c := by
    intro c hc
    simp only [Lexeme.letter?, h c hc, if_true]
  have hsplit : (cs.map Lexeme.code).splitOnP (·.letter?.isNone) = [cs.map .code] := by
    apply List.splitOnP_eq_singleton
    intro lexeme hl
    obtain ⟨c, hc, rfl⟩ := List.mem_map.1 hl
    rw [hletter c hc, Option.isNone_some]
  have hcs : (cs.map Lexeme.code).filterMap Lexeme.letter? = cs := by
    rw [List.filterMap_map]
    exact (List.filterMap_congr hletter).trans List.filterMap_some
  rw [words, hsplit, List.map_singleton, hcs]
  simp [hne]

end Words

/-! ## Cuts -/

def separator : List Lexeme := [.code ' ', .code '|', .code '>', .code ' ']

/-- Cuts at the separators. -/
def cut : List Lexeme → List (List Lexeme)
  | [] => [[]]
  | .code ' ' :: .code '|' :: .code '>' :: .code ' ' :: rest => [] :: cut rest
  | lexeme :: rest => (cut rest).modifyHead (lexeme :: ·)

/-- The pieces of a text between the ` |> ` that stand outside of its string literals. -/
def cutText (text : String) : List String :=
  (cut (lex text)).map fun piece => String.ofList (piece.flatMap Lexeme.text)

section Cuts

variable {piece rest : List Lexeme} {pieces : List (List Lexeme)}

theorem cut_cons {lexeme : Lexeme} (h : rest.head? ≠ some (.code '|')) :
    cut (lexeme :: rest) = (cut rest).modifyHead (lexeme :: ·) := by
  rw [cut]
  intro rest' _ hr
  rw [hr] at h
  exact h rfl

theorem cut_append (h : .code '|' ∉ piece) (hrest : rest.head? ≠ some (.code '|')) :
    cut (piece ++ rest) = (cut rest).modifyHead (piece ++ ·) := by
  induction piece with
  | nil => exact (congrFun List.modifyHead_id _).symm
  | cons lexeme piece ih =>
    simp only [List.mem_cons, not_or] at h
    have hnext : (piece ++ rest).head? ≠ some (.code '|') := by
      cases piece with
      | nil => exact hrest
      | cons next piece =>
        simp only [List.mem_cons, not_or] at h
        simpa using Ne.symm h.2.1
    rw [List.cons_append, cut_cons hnext, ih h.2, List.modifyHead_modifyHead]
    rfl

theorem cut_intercalate (hne : pieces ≠ []) (h : ∀ piece ∈ pieces, .code '|' ∉ piece) :
    cut (separator.intercalate pieces) = pieces := by
  induction pieces with
  | nil => exact absurd rfl hne
  | cons piece pieces ih =>
    have hpiece := h piece List.mem_cons_self
    cases pieces with
    | nil =>
      have hcut : cut (piece ++ []) = (cut []).modifyHead (piece ++ ·) :=
        cut_append hpiece (by simp)
      simpa [cut] using hcut
    | cons next pieces =>
      have hpieces := ih (by simp) fun p hp => h p (List.mem_cons_of_mem _ hp)
      have hcut : ∀ rest, cut (separator ++ rest) = [] :: cut rest := fun _ => rfl
      rw [List.intercalate_cons_cons, List.append_assoc, cut_append hpiece (by simp [separator]),
        hcut, hpieces]
      simp

end Cuts

/-- A text that no cut goes through: it ends outside of its literals and has no bar there. -/
structure Whole (text : String) : Prop where
  closed : Closed text
  bars : .code '|' ∉ lex text

instance (text : String) : Decidable (Whole text) :=
  decidable_of_iff (Closed text ∧ .code '|' ∉ lex text)
    ⟨fun h => ⟨h.1, h.2⟩, fun h => ⟨h.closed, h.bars⟩⟩

section Whole

variable {a b sep : String} {texts : List String}

theorem Whole.append (ha : Whole a) (hb : Whole b) : Whole (a ++ b) := by
  refine ⟨ha.closed.append hb.closed, ?_⟩
  rw [lex_append ha.closed, List.mem_append, not_or]
  exact ⟨ha.bars, hb.bars⟩

theorem whole_intercalate (hsep : Whole sep) (h : ∀ text ∈ texts, Whole text) :
    Whole (sep.intercalate texts) :=
  intercalate_of_append (by decide) Whole.append hsep h

theorem whole_of_code (hq : '"' ∉ a.toList) (hb : '|' ∉ a.toList) : Whole a := by
  refine ⟨closed_of_no_quote hq, ?_⟩
  rw [lex_of_no_quote hq]
  simpa using hb

/-- What was joined is cut where it was joined. -/
theorem cutText_intercalate (hne : texts ≠ []) (h : ∀ text ∈ texts, Whole text) :
    cutText (" |> ".intercalate texts) = texts := by
  have hpieces : cut (lex (" |> ".intercalate texts)) = texts.map lex := by
    rw [lex_intercalate (by decide) fun text ht => (h text ht).closed]
    refine cut_intercalate (by simpa using hne) fun piece hp => ?_
    obtain ⟨text, ht, rfl⟩ := List.mem_map.1 hp
    exact (h text ht).bars
  have htext : ∀ text : String, String.ofList ((lex text).flatMap Lexeme.text) = text := by
    intro text
    rw [lex, text_scan, if_pos rfl, String.ofList_toList]
  rw [cutText, hpieces, List.map_map]
  exact (List.map_congr_left fun text _ => htext text).trans (List.map_id texts)

end Whole

end EntityFlux.Flux
