import EntityFlux.Proofs.Mentions
import EntityFlux.Proofs.Printing

/-!
# Readings of fragments

A fragment is read as the operators, parentheses, columns and parameters it consists of, and these
are grouped by precedence: comparisons bind tighter than `and`, and `and` tighter than `or`. Every
fragment can be read, but it gives back the tree of its expression only if no comparison has an
operand that ought to stand in parentheses (`Expr.reading_keeps_tree_iff`).
-/

namespace EntityFlux

namespace Flux

/-! ## From text to tokens -/

/-- What a lexeme can run together with. -/
inductive Lexeme.Kind where
  | letter
  | mark
  | alone
deriving DecidableEq, Repr

def Lexeme.kind : Lexeme → Lexeme.Kind
  | .code c => if isLetter c then .letter else if c ∈ ['=', '!', '<', '>'] then .mark else .alone
  | _ => .alone

def Lexeme.joins (a b : Lexeme) : Bool := a.kind = b.kind && a.kind ≠ .alone

/-- The longest runs of letters and of marks; everything else stands by itself. -/
def runs (lexemes : List Lexeme) : List (List Lexeme) := lexemes.splitBy Lexeme.joins

/-- What is written with a single run and is not a parameter. A blank is written and is no token. -/
def vocabulary : List (String × List Token) :=
  [(" ", []), ("(", [.opening]), (")", [.closing]), ("==", [.operator .equal]),
    ("!=", [.operator .notEqual]), ("<", [.operator .lessThan]),
    ("<=", [.operator .lessThanOrEqual]), (">", [.operator .greaterThan]),
    (">=", [.operator .greaterThanOrEqual]), ("and", [.operator .andAlso]),
    ("or", [.operator .orElse])]

def runTokens? (run : List Lexeme) : Option (List Token) :=
  let text := String.ofList (run.flatMap Lexeme.text)
  if isReference text then some [.operand (.parameter text)] else vocabulary.lookup text

def tokensOfRuns? : List (List Lexeme) → Option (List Token)
  | [] => some []
  | [.code 'r'] :: [.code '['] :: [.literal raw] :: [.code ']'] :: rest =>
    (decode raw).bind fun name =>
      (tokensOfRuns? rest).map (.operand (.column (String.ofList name)) :: ·)
  | run :: rest => (runTokens? run).bind fun tokens => (tokensOfRuns? rest).map (tokens ++ ·)

def tokens? (text : String) : Option (List Token) := tokensOfRuns? (runs (lex text))

/-- How tightly the operators of Flux bind. -/
def fluxStrength : BinaryOp → Nat
  | .orElse => 0
  | .andAlso => 1
  | _ => 2

/-- The tree that a fragment stands for. -/
def read? (text : String) : Option Tree := (tokens? text).bind (readTokens fluxStrength)

section Runs

variable {a b : List Lexeme}

theorem joins_alone {lexeme : Lexeme} (h : lexeme.kind = .alone) (other : Lexeme) :
    lexeme.joins other = false ∧ other.joins lexeme = false := by
  unfold Lexeme.joins
  cases other.kind <;> simp [h]

theorem runs_append (h : a.getLast?.all (·.kind = .alone) ∨ b.head?.all (·.kind = .alone)) :
    runs (a ++ b) = runs a ++ runs b := by
  refine List.splitBy_append fun x hx y hy => ?_
  rcases h with h | h
  · exact (joins_alone (by simpa [Option.mem_def.1 hx] using h) y).1
  · exact (joins_alone (by simpa [Option.mem_def.1 hy] using h) x).2

/-- A list of runs that gives these tokens, whatever follows it. -/
def Emits (pieces : List (List Lexeme)) (tokens : List Token) : Prop :=
  ∀ rest, tokensOfRuns? (pieces ++ rest) = (tokensOfRuns? rest).map (tokens ++ ·)

variable {pieces more : List (List Lexeme)} {tokens others : List Token}

theorem emits_nil : Emits [] [] := fun rest => by simp

theorem Emits.append (h : Emits pieces tokens) (hmore : Emits more others) :
    Emits (pieces ++ more) (tokens ++ others) := by
  intro rest
  rw [List.append_assoc, h, hmore, Option.map_map]
  simp [Function.comp_def]

theorem emits_run {run : List Lexeme} (h : runTokens? run = some tokens) (hr : run ≠ [.code 'r']) :
    Emits [run] tokens := by
  intro rest
  rw [List.singleton_append, tokensOfRuns?, h, Option.bind_some]
  rintro raw rest rfl -
  exact hr rfl

theorem emits_of_map {groups : List (List Token)} (h : pieces.map runTokens? = groups.map some)
    (hr : [.code 'r'] ∉ pieces) : Emits pieces groups.flatten := by
  induction pieces generalizing groups with
  | nil =>
    obtain rfl : groups = [] := by simpa using h.symm
    exact emits_nil
  | cons run pieces ih =>
    rcases groups with _ | ⟨tokens, groups⟩
    · simp at h
    · simp only [List.map_cons, List.cons.injEq] at h
      simp only [List.mem_cons, not_or] at hr
      exact (emits_run h.1 (Ne.symm hr.1)).append (ih h.2 hr.2)

end Runs

/-! ## Tokens of fragments -/

section Fragments

theorem runs_parameterName (position : Nat) :
    runs (lex (parameterName position)) = [(parameterName position).toList.map .code] := by
  have hletter : ∀ c ∈ (parameterName position).toList, isLetter c := by
    intro c hc
    simp [isLetter, isAlphanum_of_mem_parameterName hc]
  have hquote : '"' ∉ (parameterName position).toList :=
    fun h => absurd (isAlphanum_of_mem_parameterName h) (by decide)
  rw [lex_of_no_quote hquote]
  refine List.splitBy_of_isChain (by simp [parameterName]) ?_
  refine List.Pairwise.isChain (List.pairwise_of_forall_mem_list ?_)
  intro a ha b hb
  obtain ⟨c, hc, rfl⟩ := List.mem_map.1 ha
  obtain ⟨d, hd, rfl⟩ := List.mem_map.1 hb
  simp [Lexeme.joins, Lexeme.kind, hletter c hc, hletter d hd]

theorem emits_parameterName (position : Nat) :
    Emits (runs (lex (parameterName position)))
      [.operand (.parameter (parameterName position))] := by
  rw [runs_parameterName]
  refine emits_run ?_ ?_
  · have htext : String.ofList
        (((parameterName position).toList.map Lexeme.code).flatMap Lexeme.text)
          = parameterName position := by
      simp [List.flatMap_map, Lexeme.text]
    rw [runTokens?, htext, if_pos (isReference_parameterName position)]
  · simp [parameterName]

theorem emits_recordAccess {column : String} (h : IsPlain column) :
    Emits (runs (lex (recordAccess column))) [.operand (.column column)] := by
  have hruns : runs (lex (recordAccess column))
      = [[.code 'r'], [.code '['], [.literal column.toList], [.code ']']] := by
    rw [(lex_recordAccess h).2]
    rfl
  intro rest
  simp [hruns, tokensOfRuns?, decode_plain h.1 h.2]

end Fragments

end Flux

open Flux

/-- A text that closes and gives these tokens. -/
structure Reads (text : String) (tokens : List Token) : Prop where
  closed : Closed text
  emits : Emits (runs (lex text)) tokens

section Reading

variable {a b sep : String} {first second tokens : List Token}

theorem Reads.tokens? (h : Reads a tokens) : tokens? a = some tokens := by
  have hnil := h.emits []
  rw [List.append_nil] at hnil
  simpa [Flux.tokens?, tokensOfRuns?] using hnil

theorem Reads.append (ha : Reads a first) (hb : Reads b second)
    (h : (lex a).getLast?.all (·.kind = .alone) ∨ (lex b).head?.all (·.kind = .alone)) :
    Reads (a ++ b) (first ++ second) := by
  refine ⟨ha.closed.append hb.closed, ?_⟩
  rw [lex_append ha.closed, runs_append h]
  exact ha.emits.append hb.emits

/-- Texts with something between them that runs together with neither. -/
theorem Reads.glue (ha : Reads a first) (hsep : Reads sep tokens) (hb : Reads b second)
    (hhead : (lex sep).head?.any (·.kind = .alone))
    (hlast : (lex sep).getLast?.all (·.kind = .alone)) :
    Reads (a ++ (sep ++ b)) (first ++ (tokens ++ second)) := by
  refine ha.append (hsep.append hb (.inl hlast)) (.inr ?_)
  obtain ⟨lexeme, hl, hkind⟩ := (Option.any_eq_true _ _).1 hhead
  rw [lex_append hsep.closed, List.head?_append, hl, Option.some_or, Option.all_some]
  exact hkind

end Reading

section Symbols

variable {op : BinaryOp} {symbol : Symbol}

/-- A symbol is written around its operands as its tokens are, with blanks on both sides. -/
theorem Symbol.reads_marks (h : op.symbol? = some symbol) :
    Reads symbol.before (List.replicate op.enclosure .opening)
      ∧ Reads symbol.between (List.replicate op.enclosure .closing
        ++ .operator op :: List.replicate op.enclosure .opening)
      ∧ Reads symbol.after (List.replicate op.enclosure .closing) := by
  have hreads : ∀ {text : String} (groups : List (List Token)),
      '"' ∉ text.toList ∧ (runs (lex text)).map runTokens? = groups.map some
        ∧ [.code 'r'] ∉ runs (lex text) → Reads text groups.flatten :=
    fun _ h => ⟨closed_of_no_quote h.1, emits_of_map h.2.1 h.2.2⟩
  cases op <;> simp only [BinaryOp.symbol?, Option.some.injEq, reduceCtorEq] at h <;> subst h
  case andAlso | orElse =>
    exact ⟨hreads [[.opening]] (by decide),
      hreads [[.closing], [], [.operator _], [], [.opening]] (by decide),
      hreads [[.closing]] (by decide)⟩
  all_goals
    exact ⟨hreads [] (by decide), hreads [[], [.operator _], []] (by decide),
      hreads [] (by decide)⟩

theorem Symbol.marks_alone (h : op.symbol? = some symbol) :
    (lex symbol.before).getLast?.all (·.kind = .alone)
      ∧ (lex symbol.between).head?.any (·.kind = .alone)
      ∧ (lex symbol.between).getLast?.all (·.kind = .alone)
      ∧ (lex symbol.after).head?.all (·.kind = .alone) := by
  cases op <;> simp only [BinaryOp.symbol?, Option.some.injEq, reduceCtorEq] at h <;> subst h <;>
    decide

theorem Reads.join (h : op.symbol? = some symbol) {left right : String} {l r : Tree}
    (hleft : Reads left l.tokens) (hright : Reads right r.tokens) :
    Reads (symbol.join left right) (Tree.joined op l r).tokens := by
  obtain ⟨hbefore, hbetween, hafter⟩ := Symbol.reads_marks h
  obtain ⟨hopen, hhead, hlast, hclose⟩ := Symbol.marks_alone h
  have hrear := hright.append hafter (.inr hclose)
  have hjoin := hbefore.append (hleft.glue hbetween hrear hhead hlast) (.inl hopen)
  rw [Symbol.join_eq]
  simpa [Tree.tokens, enclose] using hjoin

end Symbols

/-! ## Trees of expressions -/

/-- How an expression is grouped, with columns in place of members and with parameters behind
`bound` in place of constants. -/
def Expr.tree? (entity : Entity) : Nat → Expr → Option Tree
  | _, .member name => (entity.role? name).map fun role => .operand (.column role.column)
  | bound, .constant _ => some (.operand (.parameter (parameterName (bound + 1))))
  | bound, .binary op left right => do
    let l ← left.tree? entity bound
    let r ← right.tree? entity (bound + left.constants.length)
    some (.joined op l r)
  | _, _ => none

def Expr.isOperand : Expr → Bool
  | .member _ | .constant _ => true
  | _ => false

def Expr.isComparison : Expr → Bool
  | .binary op _ _ => op.isComparison
  | _ => false

/-- Something holds of the two operands of every comparison in an expression. -/
def Expr.EachComparison (P : Expr → Expr → Prop) (e : Expr) : Prop :=
  ∀ op left right, .binary op left right ∈ e.nodes → op.isComparison → P left right

section Trees

variable {entity : Entity} {e : Expr} {bound : Nat} {text : String} {tree : Tree}
  {P : Expr → Expr → Prop} {strength : BinaryOp → Nat}

@[simp] theorem Expr.eachComparison_member (name : String) : (member name).EachComparison P := by
  simp [EachComparison, nodes]

@[simp] theorem Expr.eachComparison_constant (value : Literal) :
    (constant value).EachComparison P := by
  simp [EachComparison, nodes]

theorem Expr.eachComparison_binary {op : BinaryOp} {left right : Expr} :
    (binary op left right).EachComparison P
      ↔ (op.isComparison → P left right) ∧ left.EachComparison P ∧ right.EachComparison P := by
  simp only [EachComparison, nodes, List.mem_cons, List.mem_append, binary.injEq]
  refine ⟨fun h => ⟨h op left right (.inl ⟨rfl, rfl, rfl⟩), ?_, ?_⟩, ?_⟩
  · exact fun op l r hmem => h op l r (.inr (.inl hmem))
  · exact fun op l r hmem => h op l r (.inr (.inr hmem))
  · rintro ⟨htop, hleft, hright⟩ op' l r (⟨rfl, rfl, rfl⟩ | hmem | hmem)
    · exact htop
    · exact hleft op' l r hmem
    · exact hright op' l r hmem

/-- The tokens of a compiled expression are those of its tree. -/
theorem Expr.reads_of_ok (h : (e.compile entity bound).result = .ok text)
    (hplain : ∀ column ∈ e.columns entity, IsPlain column) :
    ∃ tree, e.tree? entity bound = some tree ∧ Reads text tree.tokens := by
  revert hplain
  refine compile_ok_induction (motive := fun e bound text =>
    (∀ column ∈ e.columns entity, IsPlain column) →
      ∃ tree, e.tree? entity bound = some tree ∧ Reads text tree.tokens) ?_ ?_ ?_ e h
  · intro name role bound hr hplain
    rw [columns_member hr] at hplain
    have hcolumn : IsPlain role.column := hplain _ (by simp)
    exact ⟨.operand (.column role.column), by simp [tree?, hr],
      (lex_recordAccess hcolumn).1, emits_recordAccess hcolumn⟩
  · intro value bound _
    exact ⟨_, rfl, (readsColumns_parameterName _).whole.closed, emits_parameterName _⟩
  · intro op symbol left right bound leftText rightText hs _ _ ihl ihr hplain
    rw [columns_binary] at hplain
    obtain ⟨l, hl, hreads⟩ := ihl fun c hc => hplain c (List.mem_append_left _ hc)
    obtain ⟨r, hr, hreads'⟩ := ihr fun c hc => hplain c (List.mem_append_right _ hc)
    exact ⟨.joined op l r, by simp [tree?, hl, hr], hreads.join hs hreads'⟩

/-- What the tree of a compiled expression shows at its top. -/
inductive Expr.Tops : Expr → Tree → Prop
  | operand {e : Expr} (h : e.isOperand) (x : Operand) : Tops e (.operand x)
  | joined {op : BinaryOp} (h : ¬ op.isArithmetic) (left right : Expr) (l r : Tree) :
    Tops (.binary op left right) (.joined op l r)

/-- Whether the tree of an expression fits is a matter of the operands of its comparisons. -/
theorem Expr.fits_iff (h : (e.compile entity bound).result = .ok text)
    (htree : e.tree? entity bound = some tree)
    (hP : ∀ {op left right l r}, op.isComparison → Tops left l → Tops right r →
      (l.BindsFrom strength (strength op) ∧ r.BindsFrom strength (strength op + 1)
        ↔ P left right)) :
    tree.Fits strength ↔ e.EachComparison P := by
  suffices hall : ∀ tree, e.tree? entity bound = some tree →
      e.Tops tree ∧ (tree.Fits strength ↔ e.EachComparison P) from (hall tree htree).2
  refine compile_ok_induction (motive := fun e bound _ => ∀ tree,
    e.tree? entity bound = some tree → e.Tops tree ∧ (tree.Fits strength ↔ e.EachComparison P))
    ?_ ?_ ?_ e h
  · intro name role bound hr tree htree
    obtain rfl : .operand (.column role.column) = tree := by simpa [tree?, hr] using htree
    exact ⟨.operand rfl _, by simp [Tree.Fits]⟩
  · intro value bound tree htree
    obtain rfl : .operand (.parameter (parameterName (bound + 1))) = tree := by
      simpa [tree?] using htree
    exact ⟨.operand rfl _, by simp [Tree.Fits]⟩
  · intro op symbol left right bound _ _ hs _ _ ihl ihr tree htree
    obtain ⟨l, hl, r, hr, rfl⟩ : ∃ l, left.tree? entity bound = some l
        ∧ ∃ r, right.tree? entity (bound + left.constants.length) = some r
          ∧ .joined op l r = tree := by
      simpa [tree?, Option.bind_eq_some_iff] using htree
    obtain ⟨htop, hleft⟩ := ihl l hl
    obtain ⟨htop', hright⟩ := ihr r hr
    refine ⟨.joined (BinaryOp.not_isArithmetic hs) left right l r, ?_⟩
    rw [eachComparison_binary, Tree.Fits, hleft, hright]
    exact and_congr_left' (forall_congr' fun hop => hP hop htop htop')

end Trees

theorem BinaryOp.fluxStrength_of_isComparison {op : BinaryOp} (h : op.isComparison) :
    fluxStrength op = 2 := by
  cases op <;> simp_all [isComparison, fluxStrength]

theorem BinaryOp.two_le_fluxStrength_iff {op : BinaryOp} (h : ¬ op.isArithmetic) :
    2 ≤ fluxStrength op ↔ op.isComparison := by
  cases op <;> simp_all [isArithmetic, isComparison, fluxStrength]

theorem BinaryOp.fluxStrength_le (op : BinaryOp) : fluxStrength op ≤ 2 := by
  cases op <;> simp [fluxStrength]

theorem Expr.Tops.bindsFrom_two_iff {e : Expr} {tree : Tree} (h : e.Tops tree) :
    tree.BindsFrom fluxStrength 2 ↔ e.isOperand ∨ e.isComparison := by
  cases h with
  | operand h x => simp [Tree.BindsFrom, Tree.operator?, h]
  | joined h left right l r =>
    simp [Tree.BindsFrom, Tree.operator?, isOperand, isComparison,
      BinaryOp.two_le_fluxStrength_iff h]

theorem Expr.Tops.bindsFrom_three_iff {e : Expr} {tree : Tree} (h : e.Tops tree) :
    tree.BindsFrom fluxStrength 3 ↔ e.isOperand := by
  cases h with
  | operand h x => simp [Tree.BindsFrom, Tree.operator?, h]
  | @joined op h left right l r =>
    have hle := op.fluxStrength_le
    simp only [Tree.BindsFrom, Tree.operator?, isOperand, Option.mem_some, forall_eq',
      Bool.false_eq_true, iff_false]
    omega

/-- A fragment with plain columns reads as some tree, and that is the tree of its expression exactly
if the right operand of every comparison is a member or a constant and the left operand is one of
these or a comparison. -/
theorem Expr.reading_keeps_tree_iff {entity : Entity} {e : Expr} {bound : Nat} {text : String}
    (h : (e.compile entity bound).result = .ok text)
    (hplain : ∀ column ∈ e.columns entity, IsPlain column) :
    ∃ tree reading, e.tree? entity bound = some tree ∧ read? text = some reading
      ∧ (reading = tree ↔ ∀ op left right, .binary op left right ∈ e.nodes → op.isComparison →
        right.isOperand ∧ (left.isOperand ∨ left.isComparison)) := by
  obtain ⟨tree, htree, hreads⟩ := reads_of_ok h hplain
  obtain ⟨reading, hreading⟩ := tree.spelled_tokens.exists_readTokens fluxStrength
  refine ⟨tree, reading, htree, ?_, ?_⟩
  · rw [read?, hreads.tokens?, Option.bind_some, hreading]
  · have hfits : reading = tree ↔ tree.Fits fluxStrength := by
      rw [← readTokens_tokens_iff, hreading, Option.some.injEq]
    rw [hfits]
    refine fits_iff h htree (P := fun left right => right.isOperand ∧ _) ?_
    intro op left right l r hop htop htop'
    rw [BinaryOp.fluxStrength_of_isComparison hop, htop.bindsFrom_two_iff,
      htop'.bindsFrom_three_iff]
    exact and_comm

/-- A chain that leans to the left is read back. A connective as an operand of a comparison is not:
the fragment reads as a connective. -/
theorem Expr.reading_keeps_tree_iff_sample :
    let entity : Entity :=
      { name := "Sensor", members := [("Id", .tag "id"), ("Value", .field "data")] }
    let chain : Expr := .binary .orElse
      (.binary .lessThan (.binary .equal (.member "Id") (.constant (.integer 1))) (.member "Value"))
      (.constant (.boolean true))
    let mixed : Expr := .binary .equal (.member "Id")
      (.binary .orElse (.constant (.boolean true)) (.member "Value"))
    (∃ tree, chain.tree? entity 0 = some tree
        ∧ read? "(r[\"id\"] == p1 < r[\"data\"]) or (p2)" = some tree)
      ∧ ∃ tree reading, mixed.tree? entity 0 = some tree
        ∧ read? "r[\"id\"] == (p1) or (r[\"data\"])" = some reading ∧ reading ≠ tree := by
  intro entity chain mixed
  have hchain : (chain.compile entity 0).result
      = .ok "(r[\"id\"] == p1 < r[\"data\"]) or (p2)" := by decide
  have hmixed : (mixed.compile entity 0).result
      = .ok "r[\"id\"] == (p1) or (r[\"data\"])" := by decide
  obtain ⟨tree, reading, htree, hread, hiff⟩ := Expr.reading_keeps_tree_iff hchain (by decide)
  obtain ⟨tree', reading', htree', hread', hiff'⟩ :=
    Expr.reading_keeps_tree_iff hmixed (by decide)
  refine ⟨⟨tree, htree, ?_⟩, tree', reading', htree', hread', fun heq => ?_⟩
  · have hchain : chain.EachComparison fun left right =>
        right.isOperand ∧ (left.isOperand ∨ left.isComparison) := by
      simp [chain, eachComparison_binary, BinaryOp.isComparison, isOperand, isComparison]
    rw [hread, hiff.2 hchain]
  · exact absurd (hiff'.1 heq .equal _ _ List.mem_cons_self rfl).1 (by simp [isOperand])

end EntityFlux
