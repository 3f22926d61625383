import EntityFlux.Proofs.References

/-!
# Renaming parameters

Flux text in which every reference to a parameter is turned into a reference to another one, and
everything else, string literals included, stays as it is. Renaming goes through a text piece by
piece, like reading does. Where a renaming moves a block of positions as a whole (`Carries`), it
turns the fragment that an expression has behind some parameters into the one that it has behind
others (`Expr.compile_of_carries`).
-/

namespace EntityFlux

open Flux

/-! ## Words of a text -/

/-- The characters of a text with every word replaced. Of the word that is being read, `word` has
been seen. -/
def replaceWords (f : List Char → List Char) : List Char → List Lexeme → List Char
  | word, [] => f word
  | word, lexeme :: rest =>
    match lexeme.letter? with
    | some c => replaceWords f (word ++ [c]) rest
    | none => f word ++ (lexeme.text ++ replaceWords f [] rest)

section Replacing

variable {f : List Char → List Char} {word : List Char} {a b : List Lexeme} {lexeme : Lexeme}

theorem replaceWords_cons_letter {c : Char} (h : lexeme.letter? = some c) :
    replaceWords f word (lexeme :: b) = replaceWords f (word ++ [c]) b := by
  rw [replaceWords, h]

theorem replaceWords_cons (h : lexeme.letter? = none) :
    replaceWords f word (lexeme :: b) = f word ++ (lexeme.text ++ replaceWords f [] b) := by
  rw [replaceWords, h]

theorem replaceWords_append_cons (h : lexeme.letter? = none) (word : List Char)
    (a b : List Lexeme) :
    replaceWords f word (a ++ lexeme :: b)
      = replaceWords f word a ++ (lexeme.text ++ replaceWords f [] b) := by
  induction a generalizing word with
  | nil => exact replaceWords_cons h
  | cons first a ih =>
    rw [List.cons_append]
    rcases hf : first.letter? with _ | c
    · rw [replaceWords_cons hf, replaceWords_cons hf, ih, List.append_assoc, List.append_assoc]
    · rw [replaceWords_cons_letter hf, replaceWords_cons_letter hf, ih]

/-- Where no letter meets a letter, two texts are gone through one after the other. -/
theorem replaceWords_append (hf : f [] = [])
    (h : a.getLast?.bind Lexeme.letter? = none ∨ b.head?.bind Lexeme.letter? = none) :
    replaceWords f [] (a ++ b) = replaceWords f [] a ++ replaceWords f [] b := by
  rcases h with h | h
  · rcases List.eq_nil_or_concat a with rfl | ⟨start, last, rfl⟩
    · simp [replaceWords, hf]
    · rw [List.concat_eq_append] at h ⊢
      have hl : last.letter? = none := by simpa using h
      rw [List.append_assoc, List.singleton_append, replaceWords_append_cons hl,
        replaceWords_append_cons hl, replaceWords, hf, List.append_nil, List.append_assoc]
  · rcases b with _ | ⟨first, b⟩
    · simp [replaceWords, hf]
    · rw [replaceWords_append_cons h, replaceWords_cons h, hf, List.nil_append]

theorem replaceWords_letters {cs : List Char} (h : ∀ c ∈ cs, isLetter c) (word : List Char) :
    replaceWords f word (cs.map .code) = f (word ++ cs) := by
  induction cs generalizing word with
  | nil => simp [replaceWords]
  | cons c cs ih =>
    have hc : Lexeme.letter? (.code c) = some c := by simp [Lexeme.letter?, h c]
    rw [List.map_cons, replaceWords_cons_letter hc, ih fun d hd => h d (List.mem_cons_of_mem c hd)]
    simp

theorem eq_code_of_letter? {c : Char} (h : lexeme.letter? = some c) :
    lexeme = .code c ∧ isLetter c := by
  cases lexeme with
  | code d =>
    simp only [Lexeme.letter?, Option.ite_none_right_eq_some, Option.some.injEq] at h
    exact ⟨congrArg _ h.2, h.2 ▸ h.1⟩
  | literal raw => simp [Lexeme.letter?] at h
  | unclosed raw => simp [Lexeme.letter?] at h

/-- What leaves all words of a text as they are leaves the text as it is. -/
theorem replaceWords_eq_self (hf : f [] = []) (hword : ∀ c ∈ word, isLetter c)
    (h : ∀ w ∈ words (word.map .code ++ a), f w = w) :
    replaceWords f word a = word ++ a.flatMap Lexeme.text := by
  induction a generalizing word with
  | nil =>
    rcases word with _ | ⟨c, word⟩
    · simp [replaceWords, hf]
    · rw [List.append_nil, words_of_letters (by simp) hword] at h
      simpa [replaceWords] using h
  | cons lexeme a ih =>
    rcases hl : lexeme.letter? with _ | c
    · rw [words_append_cons hl, List.forall_mem_append] at h
      have hrest : replaceWords f [] a = [] ++ a.flatMap Lexeme.text := ih (by simp) h.2
      have hfirst : f word = word := by
        rcases word with _ | ⟨c, word⟩
        · exact hf
        · rw [words_of_letters (by simp) hword] at h
          exact h.1 _ (List.mem_singleton_self _)
      rw [replaceWords_cons hl, hfirst, hrest, List.nil_append, List.flatMap_cons]
    · obtain ⟨rfl, hc⟩ := eq_code_of_letter? hl
      have hnext : ∀ d ∈ word ++ [c], isLetter d :=
        List.forall_mem_append.2 ⟨hword, by simpa using hc⟩
      rw [replaceWords_cons_letter hl, ih hnext (by simpa using h)]
      simp [Lexeme.text]

end Replacing

/-! ## References -/

/-- A reference to a position becomes one to the position that it is moved to. -/
def renameWord (σ : Nat → Nat) (word : List Char) : List Char :=
  if isReference (String.ofList word) then
    (parameterName (σ (Text.Numeral.value (word.drop 1)))).toList
  else word

/-- The text with all references renamed that stand outside of its string literals. -/
def rename (σ : Nat → Nat) (text : String) : String :=
  String.ofList (replaceWords (renameWord σ) [] (lex text))

section Renaming

variable {σ : Nat → Nat} {a b sep text : String} {texts : List String}

theorem renameWord_nil : renameWord σ [] = [] := rfl

theorem renameWord_parameterName (σ : Nat → Nat) (position : Nat) :
    renameWord σ (parameterName position).toList = (parameterName (σ position)).toList := by
  have hvalue : Text.Numeral.value ((parameterName position).toList.drop 1) = position := by
    simp [parameterName, Text.Numeral.ofNat, Text.Numeral.value, Nat.ofDigitChars_ten_toDigits]
  rw [renameWord, String.ofList_toList, if_pos (isReference_parameterName position), hvalue]

theorem rename_parameterName (σ : Nat → Nat) (position : Nat) :
    rename σ (parameterName position) = parameterName (σ position) := by
  have hletters : ∀ c ∈ (parameterName position).toList, isLetter c := by
    intro c hc
    simp [isLetter, isAlphanum_of_mem_parameterName hc]
  have hquote : '"' ∉ (parameterName position).toList :=
    fun h => absurd (isAlphanum_of_mem_parameterName h) (by decide)
  rw [rename, lex_of_no_quote hquote, replaceWords_letters hletters, List.nil_append,
    renameWord_parameterName, String.ofList_toList]

example : rename (· + 1) "limit(n: p9, offset: p10) p1x r[\"p1\"]"
    = "limit(n: p10, offset: p11) p1x r[\"p1\"]" := by decide

/-- A text without references stays as it is. -/
theorem rename_of_unreferenced (h : references text = []) : rename σ text = text := by
  have hwords : ∀ word ∈ words (([] : List Char).map .code ++ lex text),
      renameWord σ word = word := by
    intro word hw
    have hmem : String.ofList word ∈ wordsOf text := List.mem_map_of_mem hw
    exact if_neg (List.filter_eq_nil_iff.1 h _ hmem)
  rw [rename, replaceWords_eq_self renameWord_nil (by simp) hwords, List.nil_append, lex,
    text_scan, if_pos rfl, String.ofList_toList]

theorem rename_append (ha : Closed a) (h : EndsApart a ∨ StartsApart b) :
    rename σ (a ++ b) = rename σ a ++ rename σ b := by
  unfold rename
  rw [lex_append ha, replaceWords_append renameWord_nil (h.imp id StartsApart.head),
    String.ofList_append]

/-- Text between two marks that are no references. -/
theorem rename_frame {before after : String} (hbefore : Closed before ∧ EndsApart before)
    (hafter : StartsApart after) (hmarks : references before = [] ∧ references after = [])
    (h : Closed text) :
    rename σ (before ++ (text ++ after)) = before ++ (rename σ text ++ after) := by
  rw [rename_append hbefore.1 (.inl hbefore.2), rename_append h (.inr hafter),
    rename_of_unreferenced hmarks.1, rename_of_unreferenced hmarks.2]

theorem rename_glue (ha : Closed a) (hsep : Glue sep) (hmark : references sep = []) (b : String) :
    rename σ (a ++ (sep ++ b)) = rename σ a ++ (sep ++ rename σ b) := by
  rw [rename_append ha (.inr (hsep.starts.append hsep.ne_empty b)),
    rename_append hsep.closed (.inl hsep.ends), rename_of_unreferenced hmark]

theorem rename_frame_two {before left between right after : String}
    (hbefore : Closed before ∧ EndsApart before) (hbetween : Glue between)
    (hafter : StartsApart after)
    (hmarks : references before = [] ∧ references between = [] ∧ references after = [])
    (hl : Closed left) (hr : Closed right) :
    rename σ (before ++ (left ++ (between ++ (right ++ after))))
      = before ++ (rename σ left ++ (between ++ (rename σ right ++ after))) := by
  rw [rename_append hbefore.1 (.inl hbefore.2), rename_glue hl hbetween hmarks.2.1,
    rename_append hr (.inr hafter), rename_of_unreferenced hmarks.1,
    rename_of_unreferenced hmarks.2.2]

theorem rename_intercalate (hsep : Glue sep) (hmark : references sep = [])
    (h : ∀ text ∈ texts, Closed text) :
    rename σ (sep.intercalate texts) = sep.intercalate (texts.map (rename σ)) := by
  induction texts with
  | nil => exact rename_of_unreferenced rfl
  | cons text texts ih =>
    have htext := h text List.mem_cons_self
    have htexts := ih fun t ht => h t (List.mem_cons_of_mem _ ht)
    cases texts with
    | nil => simp [String.intercalate_singleton]
    | cons next texts =>
      rw [String.intercalate_cons_cons, String.append_assoc, rename_glue htext hsep hmark, htexts]
      simp only [List.map_cons, String.intercalate_cons_cons, String.append_assoc]

end Renaming

/-! ## Blocks of positions -/

/-- Moves the `width` positions behind `bound` to behind `bound'`, in their order. -/
def Carries (σ : Nat → Nat) (width bound bound' : Nat) : Prop :=
  ∀ i < width, σ (bound + 1 + i) = bound' + 1 + i

section Carrying

variable {σ : Nat → Nat} {first second bound bound' : Nat}

theorem Carries.left (h : Carries σ (first + second) bound bound') :
    Carries σ first bound bound' :=
  fun i hi => h i (by omega)

theorem Carries.right (h : Carries σ (first + second) bound bound') :
    Carries σ second (bound + first) (bound' + first) := by
  intro i hi
  have hmoved := h (first + i) (by omega)
  rw [show bound + first + 1 + i = bound + 1 + (first + i) by omega, hmoved]
  omega

end Carrying

section Fragments

variable {σ : Nat → Nat} {entity : Entity} {e : Expr} {bound bound' : Nat} {text : String}

theorem Symbol.rename_join {op : BinaryOp} {symbol : Symbol} (h : op.symbol? = some symbol)
    {left right : String} (hl : Closed left) (hr : Closed right) :
    rename σ (symbol.join left right) = symbol.join (rename σ left) (rename σ right) := by
  have hkeywords : ∀ word ∈ keywords, isReference word = false := by decide
  obtain ⟨hbefore, hbetween, hafter, hwords, hwords', hwords''⟩ := Symbol.words_marks h
  rw [Symbol.join_eq, Symbol.join_eq]
  exact rename_frame_two hbefore hbetween hafter ⟨mentions_of_words hkeywords hwords,
    mentions_of_words hkeywords hwords', mentions_of_words hkeywords hwords''⟩ hl hr

/-- Moved behind other parameters, an expression compiles to its fragment with the references
renamed. -/
theorem Expr.compile_of_carries (h : (e.compile entity bound).result = .ok text)
    (hplain : ∀ column ∈ e.columns entity, IsPlain column)
    (hσ : Carries σ e.constants.length bound bound') :
    (e.compile entity bound').result = .ok (rename σ text) := by
  revert bound' hplain
  refine compile_ok_induction (motive := fun e bound text => ∀ {bound' : Nat},
    (∀ column ∈ e.columns entity, IsPlain column) → Carries σ e.constants.length bound bound' →
      (e.compile entity bound').result = .ok (rename σ text)) ?_ ?_ ?_ e h
  · intro name role bound hr bound' hplain _
    rw [columns_member hr] at hplain
    have hunreferenced : references (recordAccess role.column) = [] := by
      rw [references, mentions, wordsOf_recordAccess (hplain _ (by simp))]
      rfl
    simp [compile, Entity.resolve, hr, Except.map, rename_of_unreferenced hunreferenced]
  · intro value bound bound' _ hσ
    rw [rename_parameterName, hσ 0 Nat.one_pos]
    rfl
  · intro op symbol left right bound leftText rightText hs hl hr ihl ihr bound' hplain hσ
    rw [columns_binary] at hplain
    have hleft := fun c hc => hplain c (List.mem_append_left _ hc)
    have hright := fun c hc => hplain c (List.mem_append_right _ hc)
    rw [constants_binary, List.length_append] at hσ
    have hl' := ihl hleft hσ.left
    have hr' := ihr hright hσ.right
    rw [compile_binary_of_ok hs hl', literals_of_ok hl', hr',
      Symbol.rename_join hs (readsColumns_of_plain hl hleft).whole.closed
        (readsColumns_of_plain hr hright).whole.closed]
    rfl

end Fragments

/-! ## Stages -/

section Stages

variable {σ : Nat → Nat} {texts : List String} {n offset : Option String} {bound bound' : Nat}

theorem Stage.rename_drop (columns : List String) :
    (Stage.drop columns).map (rename σ) = Stage.drop columns := by
  have hdrop : (Stage.drop columns).flatMap references = [] :=
    Stage.mentions_drop (by decide) columns
  refine (List.map_congr_left fun stage hs => ?_).trans (List.map_id _)
  exact rename_of_unreferenced (List.flatMap_eq_nil_iff.1 hdrop stage hs)

theorem Stage.rename_filter (h : ∀ text ∈ texts, Closed text) :
    (Stage.filter texts).map (rename σ) = Stage.filter (texts.map (rename σ)) := by
  have hopen : Closed "(" := by decide
  have hclosed : ∀ part ∈ texts.map fun text => "(" ++ text ++ ")", Closed part := by
    intro part hp
    obtain ⟨text, ht, rfl⟩ := List.mem_map.1 hp
    exact (hopen.append (h text ht)).append (by decide)
  have hparts : (texts.map fun text => "(" ++ text ++ ")").map (rename σ)
      = (texts.map (rename σ)).map fun text => "(" ++ text ++ ")" := by
    rw [List.map_map, List.map_map]
    refine List.map_congr_left fun text ht => ?_
    rw [Function.comp_apply, Function.comp_apply, String.append_assoc,
      rename_frame (by decide) (by decide) ⟨rfl, rfl⟩ (h text ht), String.append_assoc]
  cases texts with
  | nil => rfl
  | cons first rest =>
    rw [Stage.filter, List.map_singleton, String.append_assoc,
      rename_frame (by decide) (by decide) (by decide) (closed_intercalate (by decide) hclosed),
      rename_intercalate (by decide) (by decide) hclosed, hparts, ← String.append_assoc]
    · rfl
    · simp

theorem Stage.rename_sort (h : Carries σ 2 bound bound') :
    rename σ (Stage.sort bound) = Stage.sort bound' := by
  unfold Stage.sort
  simp only [String.append_assoc]
  rw [rename_frame_two (by decide) (by decide) (by decide) (by decide)
    (readsColumns_parameterName _).whole.closed (readsColumns_parameterName _).whole.closed,
    rename_parameterName, rename_parameterName, h 0 (by omega), h 1 (by omega)]

theorem Stage.rename_limit (hn : ∀ text ∈ n, Closed text) (ho : ∀ text ∈ offset, Closed text) :
    (Stage.limit n offset).map (rename σ)
      = Stage.limit (n.map (rename σ)) (offset.map (rename σ)) := by
  rcases n with _ | n
  · rfl
  · rcases offset with _ | offset
    · simp only [Stage.limit, List.map_singleton, String.append_assoc, Option.map_some,
        Option.map_none]
      rw [rename_frame (by decide) (by decide) (by decide) (hn n rfl)]
    · simp only [Stage.limit, List.map_singleton, String.append_assoc, Option.map_some]
      rw [rename_frame_two (by decide) (by decide) (by decide) (by decide) (hn n rfl)
        (ho offset rfl)]

theorem Stage.rename_source {settings : Settings} (h : Carries σ settings.sourceWidth 0 0) :
    ["from(bucket: p1)", Stage.range settings.rangeStop.isSome].map (rename σ)
      = ["from(bucket: p1)", Stage.range settings.rangeStop.isSome] := by
  have hfrom : "from(bucket: p1)" = "from(bucket: " ++ (parameterName 1 ++ ")") := by decide
  have hrange : Stage.range false = "range(start: " ++ (parameterName 2 ++ ")") := by decide
  have hstop : Stage.range true
      = "range(start: " ++ (parameterName 2 ++ (", stop: " ++ (parameterName 3 ++ ")"))) := by
    decide
  have hname : ∀ position, Closed (parameterName position) :=
    fun position => (readsColumns_parameterName position).whole.closed
  have hsource : rename σ "from(bucket: p1)" = "from(bucket: p1)" := by
    rw [hfrom, rename_frame (by decide) (by decide) (by decide) (hname 1), rename_parameterName,
      h 0 (by unfold Settings.sourceWidth; omega)]
  have hsecond : σ 2 = 2 := h 1 (by unfold Settings.sourceWidth; omega)
  rw [List.map_cons, List.map_singleton, hsource]
  cases hs : settings.rangeStop.isSome with
  | false =>
    rw [hrange, rename_frame (by decide) (by decide) (by decide) (hname 2), rename_parameterName,
      hsecond]
  | true =>
    have hthird : σ 3 = 3 := h 2 (by rw [Settings.sourceWidth, hs, if_pos rfl]; omega)
    rw [hstop, rename_frame_two (by decide) (by decide) (by decide) (by decide) (hname 2) (hname 3),
      rename_parameterName, rename_parameterName, hsecond, hthird]

end Stages

end EntityFlux
