import EntityFlux.Proofs.Pieces

/-!
# What a text mentions

The words of some kind that stand in a text outside of its string literals. Texts that are put
together from pieces mention what the pieces mention, as long as no two words meet where the pieces
do. A compiled expression mentions the record once for each member (`Expr.mentions_record`), and
the parameters of its constants in their order (`Expr.mentions_references`).
-/

namespace EntityFlux

open Flux

section Apart

variable {a b sep : String} {texts : List String}

/-- No word of a text in front runs on into this text. -/
def StartsApart (text : String) : Prop := text.toList.head?.any isLetter = false

/-- No word of this text runs on into a text behind it. -/
def EndsApart (text : String) : Prop := (lex text).getLast?.bind Lexeme.letter? = none

instance (text : String) : Decidable (StartsApart text) := inferInstanceAs (Decidable (_ = false))

instance (text : String) : Decidable (EndsApart text) := inferInstanceAs (Decidable (_ = none))

theorem StartsApart.head (h : StartsApart a) : (lex a).head?.bind Lexeme.letter? = none := by
  unfold StartsApart at h
  unfold lex
  generalize a.toList = cs at h ⊢
  rcases cs with _ | ⟨c, cs⟩
  · rfl
  · have hc : isLetter c = false := by simpa using h
    rw [scan]
    split
    · have hmode : Mode.quoted ≠ .code := by simp
      obtain ⟨raw, rest, hs | hs⟩ := scan_front hmode cs
      · rw [hs]
        rfl
      · rw [hs]
        rfl
    · simp [Lexeme.letter?, hc]

theorem StartsApart.append (h : StartsApart a) (hne : a ≠ "") (b : String) :
    StartsApart (a ++ b) := by
  unfold StartsApart at h ⊢
  rw [String.toList_append, List.head?_append_of_ne_nil _ (by simpa using hne)]
  exact h

/-- The words of some kind in a text. -/
def mentions (pick : String → Bool) (text : String) : List String := (wordsOf text).filter pick

variable {pick : String → Bool}

theorem mentions_lead (ha : Closed a) (h : EndsApart a) (b : String) :
    mentions pick (a ++ b) = mentions pick a ++ mentions pick b := by
  rw [mentions, wordsOf, lex_append ha, words_append_of_last h, List.map_append,
    List.filter_append]
  rfl

theorem mentions_rear (ha : Closed a) (h : StartsApart b) :
    mentions pick (a ++ b) = mentions pick a ++ mentions pick b := by
  rw [mentions, wordsOf, lex_append ha, words_append_of_head h.head, List.map_append,
    List.filter_append]
  rfl

/-- A text that keeps the words around it apart and closes. -/
structure Glue (text : String) : Prop where
  closed : Closed text
  starts : StartsApart text
  ends : EndsApart text
  ne_empty : text ≠ ""

instance (text : String) : Decidable (Glue text) :=
  decidable_of_iff (Closed text ∧ StartsApart text ∧ EndsApart text ∧ text ≠ "")
    ⟨fun h => ⟨h.1, h.2.1, h.2.2.1, h.2.2.2⟩, fun h => ⟨h.closed, h.starts, h.ends, h.ne_empty⟩⟩

theorem mentions_glue (ha : Closed a) (hsep : Glue sep) (b : String) :
    mentions pick (a ++ (sep ++ b))
      = mentions pick a ++ (mentions pick sep ++ mentions pick b) := by
  rw [mentions_rear ha (hsep.starts.append hsep.ne_empty b), mentions_lead hsep.closed hsep.ends]

theorem mentions_frame {before text after : String} (hbefore : Closed before ∧ EndsApart before)
    (hafter : StartsApart after) (hmarks : mentions pick before = [] ∧ mentions pick after = [])
    (h : Closed text) : mentions pick (before ++ (text ++ after)) = mentions pick text := by
  rw [mentions_lead hbefore.1 hbefore.2, mentions_rear h hafter, hmarks.1, hmarks.2,
    List.nil_append, List.append_nil]

theorem mentions_frame_two {before left between right after : String}
    (hbefore : Closed before ∧ EndsApart before) (hbetween : Glue between)
    (hafter : StartsApart after)
    (hmarks : mentions pick before = [] ∧ mentions pick between = [] ∧ mentions pick after = [])
    (hl : Closed left) (hr : Closed right) :
    mentions pick (before ++ (left ++ (between ++ (right ++ after))))
      = mentions pick left ++ mentions pick right := by
  rw [mentions_lead hbefore.1 hbefore.2, mentions_glue hl hbetween, mentions_rear hr hafter,
    hmarks.1, hmarks.2.1, hmarks.2.2, List.nil_append, List.nil_append, List.append_nil]

theorem mentions_intercalate (hsep : Glue sep) (hpick : mentions pick sep = [])
    (h : ∀ text ∈ texts, Closed text) :
    mentions pick (sep.intercalate texts) = texts.flatMap (mentions pick) := by
  induction texts with
  | nil => rfl
  | cons text texts ih =>
    have htext := h text List.mem_cons_self
    have htexts := ih fun t ht => h t (List.mem_cons_of_mem _ ht)
    cases texts with
    | nil => simp [String.intercalate_singleton]
    | cons next texts =>
      rw [String.intercalate_cons_cons, String.append_assoc, mentions_glue htext hsep, hpick,
        htexts, List.nil_append]
      rfl

end Apart

/-- The words that are Flux itself in what is written with parameters and columns. -/
def keywords : List String :=
  ["and", "or", "drop", "columns", "filter", "fn", "sort", "desc", "limit", "n", "offset"]

section Fragments

variable {entity : Entity} {e : Expr} {bound : Nat} {text : String} {pick : String → Bool}

theorem mentions_of_words {vocabulary : List String}
    (hpick : ∀ word ∈ vocabulary, pick word = false)
    (h : ∀ word ∈ wordsOf text, word ∈ vocabulary) : mentions pick text = [] := by
  rw [mentions, List.filter_eq_nil_iff]
  intro word hw
  simp [hpick word (h word hw)]

/-- Around its operands a symbol has no words but its own, and keeps those of the operands apart. -/
theorem Symbol.words_marks {op : BinaryOp} {symbol : Symbol} (h : op.symbol? = some symbol) :
    (Closed symbol.before ∧ EndsApart symbol.before) ∧ Glue symbol.between
      ∧ StartsApart symbol.after ∧ (∀ word ∈ wordsOf symbol.before, word ∈ keywords)
      ∧ (∀ word ∈ wordsOf symbol.between, word ∈ keywords)
      ∧ ∀ word ∈ wordsOf symbol.after, word ∈ keywords := by
  cases op <;> simp only [BinaryOp.symbol?, Option.some.injEq, reduceCtorEq] at h <;> subst h <;>
    decide

theorem Symbol.mentions_join (hpick : ∀ word ∈ keywords, pick word = false) {op : BinaryOp}
    {symbol : Symbol} (h : op.symbol? = some symbol) {left right : String} (hl : Closed left)
    (hr : Closed right) :
    mentions pick (symbol.join left right) = mentions pick left ++ mentions pick right := by
  obtain ⟨hbefore, hbetween, hafter, hwords, hwords', hwords''⟩ := Symbol.words_marks h
  rw [Symbol.join_eq]
  exact mentions_frame_two hbefore hbetween hafter ⟨mentions_of_words hpick hwords,
    mentions_of_words hpick hwords', mentions_of_words hpick hwords''⟩ hl hr

theorem wordsOf_parameterName (position : Nat) :
    wordsOf (parameterName position) = [parameterName position] := by
  have hletters : ∀ c ∈ (parameterName position).toList, isLetter c := by
    intro c hc
    simp [isLetter, isAlphanum_of_mem_parameterName hc]
  have hquote : '"' ∉ (parameterName position).toList :=
    fun h => absurd (isAlphanum_of_mem_parameterName h) (by decide)
  have hne : (parameterName position).toList ≠ [] := by simp [parameterName]
  rw [wordsOf, lex_of_no_quote hquote, words_of_letters hne hletters, List.map_singleton,
    String.ofList_toList]

theorem wordsOf_recordAccess {column : String} (h : IsPlain column) :
    wordsOf (recordAccess column) = ["r"] := by
  rw [wordsOf, (lex_recordAccess h).2]
  rfl

/-- What is mentioned by members and by constants makes up what an expression mentions. -/
theorem Expr.mentions_of_ok (hpick : ∀ word ∈ keywords, pick word = false)
    (view : Expr → Nat → List String)
    (member : ∀ name bound, view (.member name) bound = ["r"].filter pick)
    (constant : ∀ value bound,
      view (.constant value) bound = [parameterName (bound + 1)].filter pick)
    (binary : ∀ op left right bound, view (.binary op left right) bound
      = view left bound ++ view right (bound + left.constants.length))
    (h : (e.compile entity bound).result = .ok text)
    (hplain : ∀ column ∈ e.columns entity, IsPlain column) :
    mentions pick text = view e bound := by
  revert hplain
  refine compile_ok_induction (motive := fun e bound text =>
    (∀ column ∈ e.columns entity, IsPlain column) → mentions pick text = view e bound)
    ?_ ?_ ?_ e h
  · intro name role bound hr hplain
    rw [columns_member hr] at hplain
    rw [mentions, wordsOf_recordAccess (hplain _ (by simp)), member]
  · intro value bound _
    rw [mentions, wordsOf_parameterName, constant]
  · intro op symbol left right bound leftText rightText hs hl hr ihl ihr hplain
    rw [columns_binary] at hplain
    have hleft := fun c hc => hplain c (List.mem_append_left _ hc)
    have hright := fun c hc => hplain c (List.mem_append_right _ hc)
    rw [Symbol.mentions_join hpick hs (readsColumns_of_plain hl hleft).whole.closed
      (readsColumns_of_plain hr hright).whole.closed, ihl hleft, ihr hright, binary]

def isRecord (word : String) : Bool := word = "r"

theorem isRecord_parameterName (position : Nat) : isRecord (parameterName position) = false := by
  refine decide_eq_false fun h => ?_
  have hhead := congrArg (fun name => name.toList.head?) h
  simp [parameterName] at hhead

/-- The record is mentioned once for each member. -/
theorem Expr.mentions_record (h : (e.compile entity bound).result = .ok text)
    (hplain : ∀ column ∈ e.columns entity, IsPlain column) :
    mentions isRecord text = e.members.map fun _ => "r" := by
  refine mentions_of_ok (by decide) (fun e _ => e.members.map fun _ => "r") ?_ ?_ ?_ h hplain
  · intro name bound
    rfl
  · intro value bound
    simp [isRecord_parameterName]
  · intro op left right bound
    simp

def isReference (word : String) : Bool :=
  match word.toList with
  | 'p' :: digits => digits ≠ [] && digits.all Char.isDigit
  | _ => false

theorem isReference_parameterName (position : Nat) : isReference (parameterName position) := by
  have hdigits : ∀ c ∈ Nat.toDigits 10 position, c.isDigit :=
    fun c hc => Nat.isDigit_of_mem_toDigits (by decide) (by decide) hc
  simpa [isReference, parameterName, Text.Numeral.ofNat] using hdigits

/-- The positions of the next `width` parameters behind `bound`. -/
def block (bound width : Nat) : List Nat := List.range' (bound + 1) width

theorem block_append (bound first second : Nat) :
    block bound first ++ block (bound + first) second = block bound (first + second) := by
  unfold block
  rw [Nat.add_right_comm]
  exact List.range'_append_1

/-- Every constant is mentioned by its parameter. -/
theorem Expr.mentions_references (h : (e.compile entity bound).result = .ok text)
    (hplain : ∀ column ∈ e.columns entity, IsPlain column) :
    mentions isReference text = (block bound e.constants.length).map parameterName := by
  refine mentions_of_ok (by decide)
    (fun e bound => (block bound e.constants.length).map parameterName) ?_ ?_ ?_ h hplain
  · intro name bound
    rfl
  · intro value bound
    have hc : (constant value).constants.length = 1 := rfl
    simp [block, hc, isReference_parameterName]
  · intro op left right bound
    have hb : constant? (.binary op left right) = none := rfl
    have hconstants : (binary op left right).constants = left.constants ++ right.constants := by
      simp [constants, nodes, hb]
    simp only [hconstants, List.length_append, ← block_append, List.map_append]

end Fragments

/-! ## Stages -/

section Stages

variable {pick : String → Bool} {texts : List String} {n offset : Option String}

theorem mentions_quote (text : String) : mentions pick (Text.quote text) = [] := by
  obtain ⟨-, raw, hlex, -⟩ := lex_quote text
  rw [mentions, wordsOf, hlex]
  rfl

theorem Stage.mentions_drop (hpick : ∀ word ∈ keywords, pick word = false)
    (columns : List String) : (Stage.drop columns).flatMap (mentions pick) = [] := by
  unfold Stage.drop
  split
  · rfl
  · have hclosed : ∀ text ∈ columns.map Text.quote, Closed text := by
      intro text ht
      obtain ⟨column, -, rfl⟩ := List.mem_map.1 ht
      exact (lex_quote column).1
    rw [List.flatMap_singleton, String.append_assoc, mentions_frame (by decide) (by decide)
      ⟨mentions_of_words hpick (by decide), mentions_of_words hpick (by decide)⟩
      (closed_intercalate (by decide) hclosed), mentions_intercalate (by decide) rfl hclosed,
      List.flatMap_map]
    simp only [mentions_quote, List.flatMap_eq_nil_iff, implies_true]

theorem Stage.mentions_filter (hpick : ∀ word ∈ "r" :: keywords, pick word = false)
    (h : ∀ text ∈ texts, Closed text) :
    (Stage.filter texts).flatMap (mentions pick) = texts.flatMap (mentions pick) := by
  have hframe : ∀ text ∈ texts, Closed ("(" ++ text ++ ")")
      ∧ mentions pick ("(" ++ text ++ ")") = mentions pick text := by
    intro text ht
    have hopen : Closed "(" := by decide
    refine ⟨(hopen.append (h text ht)).append (by decide), ?_⟩
    rw [String.append_assoc]
    exact mentions_frame (by decide) (by decide) ⟨rfl, rfl⟩ (h text ht)
  have hclosed : ∀ part ∈ texts.map fun text => "(" ++ text ++ ")", Closed part := by
    intro part hp
    obtain ⟨text, ht, rfl⟩ := List.mem_map.1 hp
    exact (hframe text ht).1
  cases texts with
  | nil => rfl
  | cons first rest =>
    rw [Stage.filter, List.flatMap_singleton, String.append_assoc,
      mentions_frame (by decide) (by decide)
        ⟨mentions_of_words hpick (by decide), mentions_of_words hpick (by decide)⟩
        (closed_intercalate (by decide) hclosed),
      mentions_intercalate (by decide) (mentions_of_words hpick (by decide)) hclosed,
      List.flatMap_map]
    · exact List.flatMap_congr fun text ht => (hframe text ht).2
    · simp

theorem Stage.mentions_sort (hpick : ∀ word ∈ keywords, pick word = false) (bound : Nat) :
    mentions pick (Stage.sort bound)
      = [parameterName (bound + 1), parameterName (bound + 2)].filter pick := by
  have hmentions : ∀ position, mentions pick (parameterName position)
      = [parameterName position].filter pick := fun position => by
    rw [mentions, wordsOf_parameterName]
  unfold Stage.sort
  simp only [String.append_assoc]
  rw [mentions_frame_two (by decide) (by decide) (by decide)
    ⟨mentions_of_words hpick (by decide), mentions_of_words hpick (by decide),
      mentions_of_words hpick (by decide)⟩
    (readsColumns_parameterName _).whole.closed (readsColumns_parameterName _).whole.closed,
    hmentions, hmentions, ← List.filter_append]
  rfl

theorem Stage.mentions_limit (hpick : ∀ word ∈ keywords, pick word = false)
    (hn : ∀ text ∈ n, Closed text) (ho : ∀ text ∈ offset, Closed text) :
    (Stage.limit n offset).flatMap (mentions pick)
      = n.toList.flatMap fun n => mentions pick n ++ offset.toList.flatMap (mentions pick) := by
  rcases n with _ | n
  · rfl
  · rcases offset with _ | offset
    · simp only [Stage.limit, List.flatMap_singleton, String.append_assoc, Option.toList_some,
        Option.toList_none, List.flatMap_nil, List.append_nil]
      exact mentions_frame (by decide) (by decide)
        ⟨mentions_of_words hpick (by decide), mentions_of_words hpick (by decide)⟩ (hn n rfl)
    · simp only [Stage.limit, List.flatMap_singleton, String.append_assoc, Option.toList_some]
      exact mentions_frame_two (by decide) (by decide) (by decide)
        ⟨mentions_of_words hpick (by decide), mentions_of_words hpick (by decide),
          mentions_of_words hpick (by decide)⟩ (hn n rfl) (ho offset rfl)

end Stages

/-! ## Limits -/

/-- The counts that the text is limited by: that of the last take and, beside a take, that of the
last skip. -/
def Query.applied (settings : Settings) (query : Query) : List (Nat × Expr) :=
  (query.takesAt settings).getLast?.toList.flatMap fun take =>
    take :: (query.skipsAt settings).getLast?.toList

section Limits

variable {settings : Settings} {registry : Registry} {query : Query} {request : Request}
  {entity : Entity} {pick : String → Bool} {bound : Nat} {n : Expr}

theorem Query.Lowered.compile_of_mem_applied (h : query.Lowered settings registry request entity)
    (hn : (bound, n) ∈ query.applied settings) :
    (n.compile entity bound).result = .ok (n.fragment entity bound) := by
  obtain ⟨take, ht, hn⟩ := List.mem_flatMap.1 hn
  rcases List.mem_cons.1 hn with rfl | hn
  · exact h.takes (List.mem_of_getLast? (by simpa using ht))
  · exact h.skips (List.mem_of_getLast? (by simpa using hn))

/-- The limit mentions what the counts mention that it is made of. -/
theorem Query.Lowered.mentions_limit (h : query.Lowered settings registry request entity)
    (hplain : registry.IsPlain) (hpick : ∀ word ∈ keywords, pick word = false) :
    (Stage.limit (query.limits settings entity).getLast?
        (query.skips settings entity).getLast?).flatMap (mentions pick)
      = (query.applied settings).flatMap fun (bound, n) =>
        mentions pick (n.fragment entity bound) := by
  rw [Stage.mentions_limit hpick
    (fun text ht => (h.whole_limits hplain text (List.mem_of_getLast? ht)).closed)
    (fun text ht => (h.whole_skips hplain text (List.mem_of_getLast? ht)).closed),
    Query.limits_eq, Query.skips_eq, List.getLast?_map, List.getLast?_map, Query.applied]
  rcases (query.takesAt settings).getLast? with _ | take
  · rfl
  · rcases (query.skipsAt settings).getLast? with _ | skip
    · simp
    · simp

end Limits

end EntityFlux
