import EntityFlux.Proofs.Stages
import EntityFlux.Proofs.StringLiterals

/-!
# Record accesses

A compiled expression names its columns inside string literals, but puts them there as they are. So
it reads back as it was meant exactly if no column holds a quote or a backslash
(`Expr.readsColumns_of_plain`, `Expr.plain_of_values_prefix`); then nothing of a column shows
outside of its literal. The columns that are dropped are quoted with escapes and always read back
(`values_drop`).
-/

namespace EntityFlux

open Flux

namespace Expr

def member? : Expr → Option String
  | .member name => some name
  | _ => none

/-- The members of an expression from left to right, one for each node that is a member. -/
def members (e : Expr) : List String := e.nodes.filterMap member?

/-- The columns of the members, as far as they are mapped. -/
def columns (entity : Entity) (e : Expr) : List String :=
  e.members.filterMap fun name => (entity.role? name).map Role.column

/-- What holds of members and constants, and of two operands joined, holds of all that compiles. -/
theorem compile_ok_induction {entity : Entity} {motive : Expr → Nat → String → Prop}
    (member : ∀ name role bound, entity.role? name = some role →
      motive (.member name) bound (recordAccess role.column))
    (constant : ∀ value bound, motive (.constant value) bound (parameterName (bound + 1)))
    (binary : ∀ op symbol left right bound leftText rightText, op.symbol? = some symbol →
      (left.compile entity bound).result = .ok leftText →
      (right.compile entity (bound + left.constants.length)).result = .ok rightText →
      motive left bound leftText → motive right (bound + left.constants.length) rightText →
      motive (.binary op left right) bound (symbol.join leftText rightText)) :
    ∀ (e : Expr) {bound : Nat} {text : String}, (e.compile entity bound).result = .ok text →
      motive e bound text
  | .member name, bound, text, h => by
    rcases hr : entity.role? name with _ | role
    · simp [compile, Entity.resolve, hr, Except.map] at h
    · obtain rfl : recordAccess role.column = text := by
        simpa [compile, Entity.resolve, hr, Except.map] using h
      exact member name role bound hr
  | .constant value, bound, text, h => by
    obtain rfl : parameterName (bound + 1) = text := by simpa [compile] using h
    exact constant value bound
  | .binary op left right, bound, text, h => by
    rcases hs : op.symbol? with _ | symbol
    · simp [compile_binary_of_none hs] at h
    · rcases hl : (left.compile entity bound).result with refusal | leftText
      · simp [compile_binary_of_error hs hl] at h
      · rw [compile_binary_of_ok hs hl, literals_of_ok hl] at h
        rcases hr : (right.compile entity (bound + left.constants.length)).result with
          refusal | rightText
        · simp [hr, Except.map] at h
        · obtain rfl : symbol.join leftText rightText = text := by
            simpa [hr, Except.map] using h
          exact binary op symbol left right bound leftText rightText hs hl hr
            (compile_ok_induction member constant binary left hl)
            (compile_ok_induction member constant binary right hr)
  | .not _, _, _, h => by simp [compile] at h
  | .negate _, _, _, h => by simp [compile] at h
  | .call _ _, _, _, h => by simp [compile] at h
  | .conditional _ _ _, _, _, h => by simp [compile] at h

section Members

variable {entity : Entity} {op : BinaryOp} {left right : Expr}

@[simp] theorem members_member (name : String) : (member name).members = [name] := rfl

@[simp] theorem members_constant (value : Literal) : (constant value).members = [] := rfl

@[simp] theorem members_binary :
    (binary op left right).members = left.members ++ right.members := by
  have hb : member? (binary op left right) = none := rfl
  simp [members, nodes, hb]

theorem columns_member {name : String} {role : Role} (h : entity.role? name = some role) :
    (member name).columns entity = [role.column] := by
  simp [columns, h]

@[simp] theorem columns_constant (value : Literal) : (constant value).columns entity = [] := rfl

@[simp] theorem columns_binary :
    (binary op left right).columns entity = left.columns entity ++ right.columns entity := by
  simp [columns]

/-- In an expression that compiles every member has its column. -/
theorem resolve_members {e : Expr} {bound : Nat} {text : String}
    (h : (e.compile entity bound).result = .ok text) :
    e.members.map entity.resolve = (e.columns entity).map .ok := by
  refine compile_ok_induction
    (motive := fun e _ _ => e.members.map entity.resolve = (e.columns entity).map .ok) ?_ ?_ ?_ e h
  · intro name role _ hr
    simp [columns_member hr, Entity.resolve, hr]
  · intro value _
    rfl
  · intro op symbol left right _ _ _ _ _ _ hl hr
    simp [hl, hr]

end Members

end Expr

/-! ## Texts of symbols -/

namespace Symbol

def before : Symbol → String
  | .comparison _ => ""
  | .connective _ => "("

def between : Symbol → String
  | .comparison text => " " ++ text ++ " "
  | .connective text => ") " ++ text ++ " ("

def after : Symbol → String
  | .comparison _ => ""
  | .connective _ => ")"

theorem join_eq (symbol : Symbol) (left right : String) :
    symbol.join left right
      = symbol.before ++ (left ++ (symbol.between ++ (right ++ symbol.after))) := by
  cases symbol <;> simp [join, before, between, after, String.append_assoc]

/-- Around its operands a symbol has neither quotes nor bars. -/
theorem marks {op : BinaryOp} {symbol : Symbol} (h : op.symbol? = some symbol) :
    ∀ text ∈ [symbol.before, symbol.between, symbol.after],
      '"' ∉ text.toList ∧ '|' ∉ text.toList := by
  cases op <;> simp only [BinaryOp.symbol?, Option.some.injEq, reduceCtorEq] at h <;> subst h <;>
    decide

end Symbol

/-! ## Reading fragments -/

def Flux.Lexeme.isCode : Lexeme → Bool
  | .code _ => true
  | _ => false

/-- Every string literal stands between `r[` and `]`. -/
def Enclosed (lexemes : List Lexeme) : Prop :=
  ∀ before literal after, lexemes = before ++ literal :: after → ¬ literal.isCode →
    [.code 'r', .code '['] <:+ before ∧ [.code ']'] <+: after

theorem enclosed_code (cs : List Char) : Enclosed (cs.map .code) := by
  intro before literal after h hl
  have hmem : literal ∈ cs.map Lexeme.code := by simp [h]
  obtain ⟨c, -, rfl⟩ := List.mem_map.1 hmem
  exact absurd rfl hl

theorem Enclosed.append {a b : List Lexeme} (ha : Enclosed a) (hb : Enclosed b) :
    Enclosed (a ++ b) := by
  intro before literal after h hl
  rcases List.append_eq_append_iff.1 h with ⟨more, hbefore, hrest⟩ | ⟨more, hfirst, hrest⟩
  · obtain ⟨hr, hc⟩ := hb more literal after hrest hl
    exact ⟨hr.trans (hbefore ▸ List.suffix_append a more), hc⟩
  · cases more with
    | nil =>
      obtain ⟨hr, hc⟩ := hb [] literal after hrest.symm hl
      exact absurd hr (by simp)
    | cons first more =>
      obtain ⟨rfl, rfl⟩ := List.cons.inj hrest
      obtain ⟨hr, hc⟩ := ha before literal more hfirst hl
      exact ⟨hr, hc.trans (List.prefix_append more b)⟩

section Fragments

variable {entity : Entity} {e : Expr} {bound : Nat} {text column : String}

theorem toList_recordAccess (column : String) :
    (recordAccess column).toList = 'r' :: '[' :: '"' :: (column.toList ++ ['"', ']']) := by
  simp [recordAccess]

theorem lex_recordAccess (h : IsPlain column) :
    Closed (recordAccess column)
      ∧ lex (recordAccess column) = [.code 'r', .code '[', .literal column.toList, .code ']'] := by
  have hbody := body_of_plain h.1 h.2
  refine ⟨?_, ?_⟩
  · unfold Closed
    rw [toList_recordAccess]
    simp [Mode.next, hbody.mode]
  · rw [lex, toList_recordAccess]
    simp [scan, hbody.scan_quoted]

/-- What is seen when a text that names columns in string literals is read. -/
structure ReadsColumns (text : String) (columns : List String) : Prop where
  whole : Whole text
  values : values (lex text) = columns.map some
  enclosed : Enclosed (lex text)

theorem readsColumns_code (hq : '"' ∉ text.toList) (hb : '|' ∉ text.toList) :
    ReadsColumns text [] := by
  refine ⟨whole_of_code hq hb, ?_, ?_⟩
  · rw [lex_of_no_quote hq, values_code]
    rfl
  · rw [lex_of_no_quote hq]
    exact enclosed_code _

theorem ReadsColumns.append {a b : String} {first second : List String}
    (ha : ReadsColumns a first) (hb : ReadsColumns b second) :
    ReadsColumns (a ++ b) (first ++ second) := by
  refine ⟨ha.whole.append hb.whole, ?_, ?_⟩
  · rw [lex_append ha.whole.closed, values_append, ha.values, hb.values, List.map_append]
  · rw [lex_append ha.whole.closed]
    exact ha.enclosed.append hb.enclosed

theorem readsColumns_recordAccess (h : IsPlain column) :
    ReadsColumns (recordAccess column) [column] := by
  obtain ⟨hclosed, hlex⟩ := lex_recordAccess h
  refine ⟨⟨hclosed, by simp [hlex]⟩, ?_, ?_⟩
  · simp [hlex, Flux.values, List.filterMap_cons, Lexeme.value?, decode_plain h.1 h.2]
  · rw [hlex]
    intro before literal after hsplit hl
    -- the literal is the third of the four lexemes
    rcases before with _ | ⟨_, _ | ⟨_, _ | ⟨_, _ | ⟨_, _⟩⟩⟩⟩ <;>
      simp only [List.cons_append, List.nil_append, List.cons.injEq] at hsplit
    · exact absurd rfl (hsplit.1 ▸ hl)
    · exact absurd rfl (hsplit.2.1 ▸ hl)
    · obtain ⟨rfl, rfl, -, rfl⟩ := hsplit
      exact ⟨List.suffix_refl _, List.prefix_refl _⟩
    · exact absurd rfl (hsplit.2.2.2.1 ▸ hl)
    · simp at hsplit

theorem isAlphanum_of_mem_parameterName {position : Nat} {c : Char}
    (h : c ∈ (parameterName position).toList) : c.isAlphanum := by
  simp only [parameterName, Text.Numeral.ofNat, String.toList_append, String.toList_ofList,
    List.mem_append] at h
  rcases h with h | h
  · obtain rfl : c = 'p' := by simpa using h
    rfl
  · have hd := Nat.isDigit_of_mem_toDigits (by decide) (by decide) h
    simp [Char.isAlphanum, hd]

theorem readsColumns_parameterName (position : Nat) :
    ReadsColumns (parameterName position) [] := by
  refine readsColumns_code (fun h => ?_) (fun h => ?_)
  · exact absurd (isAlphanum_of_mem_parameterName h) (by decide)
  · exact absurd (isAlphanum_of_mem_parameterName h) (by decide)

theorem ReadsColumns.join {op : BinaryOp} {symbol : Symbol} (h : op.symbol? = some symbol)
    {left right : String} {first second : List String} (hl : ReadsColumns left first)
    (hr : ReadsColumns right second) :
    ReadsColumns (symbol.join left right) (first ++ second) := by
  have hmarks := Symbol.marks h
  have hcode : ∀ text ∈ [symbol.before, symbol.between, symbol.after], ReadsColumns text [] :=
    fun text ht => readsColumns_code (hmarks text ht).1 (hmarks text ht).2
  have hjoin := (hcode symbol.before (by simp)).append
    (hl.append ((hcode symbol.between (by simp)).append
      (hr.append (hcode symbol.after (by simp)))))
  simpa [Symbol.join_eq] using hjoin

/-- With plain columns every column is read back from a literal of its own. -/
theorem Expr.readsColumns_of_plain (h : (e.compile entity bound).result = .ok text)
    (hplain : ∀ column ∈ e.columns entity, IsPlain column) :
    ReadsColumns text (e.columns entity) := by
  revert hplain
  refine compile_ok_induction (motive := fun e _ text =>
    (∀ column ∈ e.columns entity, IsPlain column) → ReadsColumns text (e.columns entity))
    ?_ ?_ ?_ e h
  · intro name role _ hr hplain
    rw [columns_member hr] at hplain ⊢
    exact readsColumns_recordAccess (hplain _ (by simp))
  · intro value bound _
    exact readsColumns_parameterName _
  · intro op symbol left right _ _ _ hs _ _ hl hr hplain
    rw [columns_binary] at hplain ⊢
    exact .join hs (hl fun c hc => hplain c (List.mem_append_left _ hc))
      (hr fun c hc => hplain c (List.mem_append_right _ hc))

theorem ReadsColumns.values_append {columns : List String} (h : ReadsColumns text columns)
    (rest : List Char) :
    Flux.values (scan .code (text.toList ++ rest))
      = columns.map some ++ Flux.values (scan .code rest) := by
  rw [scan_append h.whole.closed, Flux.values_append, ← h.values]
  rfl

/-- Whatever follows an expression, its columns cannot be read back one by one from its text unless
they are plain: reading goes wrong at the first that is not. -/
theorem Expr.plain_of_values_prefix (h : (e.compile entity bound).result = .ok text)
    {rest : List Char}
    (hvalues : (e.columns entity).map some <+: values (scan .code (text.toList ++ rest))) :
    ∀ column ∈ e.columns entity, IsPlain column := by
  revert rest
  refine compile_ok_induction (motive := fun e _ text => ∀ {rest : List Char},
    (e.columns entity).map some <+: values (scan .code (text.toList ++ rest)) →
      ∀ column ∈ e.columns entity, IsPlain column) ?_ ?_ ?_ e h
  · intro name role _ hr rest hvalues
    rw [columns_member hr] at hvalues ⊢
    have hscan : values (scan .code ((recordAccess role.column).toList ++ rest))
        = values (scan .quoted (role.column.toList ++ '"' :: ']' :: rest)) := by
      simp [toList_recordAccess, scan, values, List.filterMap_cons, Lexeme.value?]
    rw [hscan] at hvalues
    obtain ⟨more, hmore⟩ := hvalues
    simp only [List.mem_singleton, forall_eq]
    exact plain_of_reads (by rw [← hmore]; rfl)
  · intro value _ rest _ column hc
    simp at hc
  · intro op symbol left right _ leftText rightText hs hl _ ihl ihr rest hvalues
    have hmarks := Symbol.marks hs
    have hbefore : ReadsColumns symbol.before [] :=
      readsColumns_code (hmarks _ (by simp)).1 (hmarks _ (by simp)).2
    have hbetween : ReadsColumns symbol.between [] :=
      readsColumns_code (hmarks _ (by simp)).1 (hmarks _ (by simp)).2
    simp only [Symbol.join_eq, String.toList_append, List.append_assoc, columns_binary,
      List.map_append] at hvalues
    rw [hbefore.values_append, List.map_nil, List.nil_append] at hvalues
    have hleft := ihl ((List.prefix_append _ _).trans hvalues)
    rw [(readsColumns_of_plain hl hleft).values_append, List.prefix_append_right_inj,
      hbetween.values_append, List.map_nil, List.nil_append] at hvalues
    have hright := ihr hvalues
    intro column hc
    rw [columns_binary, List.mem_append] at hc
    exact hc.elim (hleft column) (hright column)

end Fragments

section Dropping

variable {columns : List String}

theorem values_intercalate {sep : List Lexeme} (h : values sep = [])
    (pieces : List (List Lexeme)) : values (sep.intercalate pieces) = pieces.flatMap values := by
  induction pieces with
  | nil => rfl
  | cons piece pieces ih =>
    cases pieces with
    | nil => simp
    | cons next pieces => simp [List.intercalate_cons_cons, h, ih]

/-- The columns of a drop are read back whatever they hold. -/
theorem values_drop (columns : List String) :
    (Stage.drop columns).flatMap (fun stage => values (lex stage)) = columns.map some := by
  have hclosed : ∀ text ∈ columns.map Text.quote, Closed text := by
    intro text ht
    obtain ⟨column, -, rfl⟩ := List.mem_map.1 ht
    exact (lex_quote column).1
  have hvalues : ∀ column, values (lex (Text.quote column)) = [some column] := by
    intro column
    obtain ⟨-, raw, hlex, hv⟩ := lex_quote column
    simp [hlex, values, hv]
  have hlist : values (lex (", ".intercalate (columns.map Text.quote))) = columns.map some := by
    rw [lex_intercalate (by decide) hclosed, values_intercalate (by decide), List.map_map,
      List.flatMap_map]
    simp only [Function.comp_apply, hvalues, ← List.map_eq_flatMap]
  unfold Stage.drop
  split
  · rename_i hnil
    simp [hnil]
  · have hlead : values (lex "drop(columns: [") = [] := by decide
    have hrear : values (lex "])") = [] := by decide
    have hall : Closed ("drop(columns: [" ++ ", ".intercalate (columns.map Text.quote)) :=
      Closed.append (by decide) (closed_intercalate (by decide) hclosed)
    rw [List.flatMap_singleton, lex_append hall, lex_append (by decide), values_append,
      values_append, hlead, hlist, hrear, List.nil_append, List.append_nil]

theorem Flux.Pipeline.values_drop? {pipeline : Pipeline} {stage : String}
    (h : pipeline.drop? = some stage) :
    values (lex stage) = pipeline.dropColumns.map some := by
  rw [← values_drop, ← Pipeline.drop?_toList, h, Option.toList_some, List.flatMap_singleton]

end Dropping

/-- A compiled expression has one string literal for each of its members, in their order and inside
`r[` and `]`, that stands for the column of the member, exactly if its columns hold no quotes and no
backslashes. Columns that are dropped may hold anything. -/
theorem Expr.columns_read_back_iff {entity : Entity} {e : Expr} {bound : Nat} {text : String}
    (h : (e.compile entity bound).result = .ok text) :
    e.members.map entity.resolve = (e.columns entity).map .ok
      ∧ (values (lex text) = (e.columns entity).map some ∧ Enclosed (lex text)
        ↔ ∀ column ∈ e.columns entity, IsPlain column)
      ∧ ∀ (pipeline : Pipeline) (stage : String), pipeline.drop? = some stage →
        values (lex stage) = pipeline.dropColumns.map some := by
  refine ⟨resolve_members h, ⟨?_, ?_⟩, fun _ _ hd => Pipeline.values_drop? hd⟩
  · rintro ⟨hvalues, -⟩
    have hprefix : (e.columns entity).map some <+: values (scan .code (text.toList ++ [])) := by
      rw [List.append_nil, ← hvalues]
      exact List.prefix_refl _
    exact plain_of_values_prefix h hprefix
  · intro hplain
    have hreads := readsColumns_of_plain h hplain
    exact ⟨hreads.values, hreads.enclosed⟩

theorem Expr.columns_read_back_iff_sample :
    ∃ text, ((Expr.binary .andAlso (.binary .equal (.member "Id") (.constant (.string "\"")))
        (.binary .lessThan (.constant (.integer 1)) (.member "Value"))).compile
          { name := "Sensor", members := [("Id", .tag "a |> b"), ("Value", .field "c]\nd")] }
          3).result = .ok text
      ∧ values (lex text) = [some "a |> b", some "c]\nd"] := by
  obtain ⟨text, ht⟩ : ∃ text,
      ((Expr.binary .andAlso (.binary .equal (.member "Id") (.constant (.string "\"")))
        (.binary .lessThan (.constant (.integer 1)) (.member "Value"))).compile
          { name := "Sensor", members := [("Id", .tag "a |> b"), ("Value", .field "c]\nd")] }
          3).result = .ok text := ⟨_, rfl⟩
  exact ⟨text, ht, ((Expr.columns_read_back_iff ht).2.1.2 (by decide)).1⟩

/-- A quote in a column ends its literal, and the quote behind the column opens another. -/
theorem Expr.column_breaks_out :
    ((Expr.member "Id").compile
        { name := "Sensor", members := [("Id", .tag "a\"b")] } 0).result = .ok "r[\"a\"b\"]"
      ∧ (Expr.member "Id").columns
        { name := "Sensor", members := [("Id", .tag "a\"b")] } = ["a\"b"]
      ∧ values (lex "r[\"a\"b\"]") = [some "a", none] := by
  decide

end EntityFlux
