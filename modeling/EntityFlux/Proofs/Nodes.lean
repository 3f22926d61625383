import EntityFlux.Lowering.Predicate
import Mathlib.Data.List.TakeWhile

/-!
# The nodes of an expression

Compiling an expression goes through its nodes in reading order, an operator ahead of its operands.
It stops at the first node that has no Flux form (`compile_reports`), and binds the constants that
stand ahead of that node (`compile_literals`): all of them, if there is no such node.
-/

namespace EntityFlux

mutual

/-- An expression and everything inside it, every node ahead of its operands. -/
def Expr.nodes : Expr → List Expr
  | .member name => [.member name]
  | .constant value => [.constant value]
  | .binary op left right => .binary op left right :: (left.nodes ++ right.nodes)
  | .not operand => .not operand :: operand.nodes
  | .negate operand => .negate operand :: operand.nodes
  | .call method args => .call method args :: Expr.nodesOf args
  | .conditional test ifTrue ifFalse =>
    .conditional test ifTrue ifFalse :: (test.nodes ++ ifTrue.nodes ++ ifFalse.nodes)

def Expr.nodesOf : List Expr → List Expr
  | [] => []
  | e :: rest => e.nodes ++ Expr.nodesOf rest

end

def BinaryOp.isArithmetic : BinaryOp → Bool
  | .add | .subtract | .multiply | .divide | .modulo => true
  | _ => false

namespace Expr

def constant? : Expr → Option Literal
  | .constant value => some value
  | _ => none

/-- The constants of an expression from left to right. -/
def constants (e : Expr) : List Literal := e.nodes.filterMap constant?

/-- Why a node, taken by itself, has no Flux form. -/
def offence? (entity : Entity) : Expr → Option Refusal
  | .member name =>
    if (entity.role? name).isSome then none else some (.unmappedMember entity.name name)
  | .constant _ => none
  | .binary op _ _ => if op.isArithmetic then some (.unsupportedExpression op.kind) else none
  | e => some (.unsupportedExpression e.kind)

/-- The offences of all nodes, in the order of the nodes. -/
def offences (entity : Entity) (e : Expr) : List Refusal := e.nodes.filterMap (offence? entity)

theorem nodesOf_eq (es : List Expr) : nodesOf es = es.flatMap nodes := by
  induction es with
  | nil => rfl
  | cons e es ih => rw [nodesOf, ih, List.flatMap_cons]

theorem constants_member (name : String) : (member name).constants = [] := rfl

theorem constants_constant (value : Literal) : (constant value).constants = [value] := rfl

theorem constants_binary (op : BinaryOp) (left right : Expr) :
    (binary op left right).constants = left.constants ++ right.constants := by
  have hb : constant? (.binary op left right) = none := rfl
  simp [constants, nodes, hb]

theorem constants_call (method : String) (args : List Expr) :
    (call method args).constants = args.flatMap constants := by
  have hc : constant? (.call method args) = none := rfl
  simp only [constants, nodes, nodesOf_eq, List.filterMap_cons, hc, List.filterMap_flatMap]
  rfl

theorem constants_conditional (test ifTrue ifFalse : Expr) :
    (conditional test ifTrue ifFalse).constants
      = test.constants ++ ifTrue.constants ++ ifFalse.constants := by
  have hc : constant? (.conditional test ifTrue ifFalse) = none := rfl
  simp [constants, nodes, hc]

end Expr

section Reports

variable {α β : Type}

/-- A result that is the first of the offences, and a success if there is none. -/
def Reports : List Refusal → Except Refusal α → Prop
  | [], result => ∃ x, result = .ok x
  | refusal :: _, result => result = .error refusal

theorem Reports.ok_iff {offences : List Refusal} {result : Except Refusal α}
    (h : Reports offences result) : (∃ x, result = .ok x) ↔ offences = [] := by
  cases offences with
  | nil => exact ⟨fun _ => rfl, fun _ => h⟩
  | cons refusal _ =>
    have hr : result = .error refusal := h
    simp [hr]

theorem Reports.error_iff {offences : List Refusal} {result : Except Refusal α}
    (h : Reports offences result) (refusal : Refusal) :
    result = .error refusal ↔ offences.head? = some refusal := by
  cases offences with
  | nil =>
    obtain ⟨x, rfl⟩ := h
    simp
  | cons first _ =>
    have hr : result = .error first := h
    simp [hr]

/-- What goes on from a result if it is a success, and stops with it otherwise, reports its own
offences behind those of the result. -/
theorem Reports.append {first second : List Refusal} {a : Except Refusal α}
    {b : Except Refusal β} (h : Reports first a) (ok : ∀ x, a = .ok x → Reports second b)
    (error : ∀ refusal, a = .error refusal → b = .error refusal) :
    Reports (first ++ second) b := by
  cases first with
  | nil =>
    obtain ⟨x, hx⟩ := h
    exact ok x hx
  | cons refusal _ => exact error refusal h

theorem Reports.map {offences : List Refusal} {result : Except Refusal α} (f : α → β)
    (h : Reports offences result) : Reports offences (result.map f) := by
  cases offences with
  | nil =>
    obtain ⟨x, rfl⟩ := h
    exact ⟨f x, rfl⟩
  | cons refusal _ =>
    have hr : result = .error refusal := h
    rw [hr]
    rfl

end Reports

theorem BinaryOp.symbol?_eq_none {op : BinaryOp} : op.symbol? = none ↔ op.isArithmetic := by
  cases op <;> simp [symbol?, isArithmetic]

theorem BinaryOp.not_isArithmetic {op : BinaryOp} {symbol : Symbol}
    (h : op.symbol? = some symbol) : ¬ op.isArithmetic := by
  rw [← symbol?_eq_none, h]
  simp

namespace Expr

variable {entity : Entity} {bound : Nat} {op : BinaryOp} {symbol : Symbol} {left right : Expr}

/-! The three ways in which compiling two operands can go. -/

theorem compile_binary_of_none (h : op.symbol? = none) :
    (binary op left right).compile entity bound
      = ⟨[], .error (.unsupportedExpression op.kind)⟩ := by
  simp only [compile, h]

theorem compile_binary_of_error (h : op.symbol? = some symbol) {refusal : Refusal}
    (hl : (left.compile entity bound).result = .error refusal) :
    (binary op left right).compile entity bound
      = ⟨(left.compile entity bound).literals, .error refusal⟩ := by
  simp only [compile, h, hl]

theorem compile_binary_of_ok (h : op.symbol? = some symbol) {text : String}
    (hl : (left.compile entity bound).result = .ok text) :
    (binary op left right).compile entity bound
      = ⟨(left.compile entity bound).literals
          ++ (right.compile entity (bound + (left.compile entity bound).literals.length)).literals,
        (right.compile entity (bound + (left.compile entity bound).literals.length)).result.map
          (symbol.join text)⟩ := by
  simp only [compile, h, hl]

theorem offences_binary (h : op.symbol? = some symbol) :
    (binary op left right).offences entity = left.offences entity ++ right.offences entity := by
  simp [offences, nodes, offence?, BinaryOp.not_isArithmetic h]

theorem reports_resolve (entity : Entity) (name : String) :
    Reports (offence? entity (.member name)).toList (entity.resolve name) := by
  simp only [offence?, Entity.resolve]
  cases entity.role? name with
  | none => simp [Reports]
  | some role => simp [Reports]

/-- Compiling succeeds if no node offends, and otherwise reports the first that does. -/
theorem compile_reports (entity : Entity) :
    ∀ (e : Expr) (bound : Nat), Reports (e.offences entity) (e.compile entity bound).result
  | .member name, bound => by
    have hn : (member name).offences entity = (offence? entity (.member name)).toList := by
      simp only [offences, nodes, List.filterMap_cons, List.filterMap_nil]
      cases offence? entity (.member name) <;> rfl
    rw [hn]
    exact (reports_resolve entity name).map recordAccess
  | .constant value, bound => ⟨_, rfl⟩
  | .binary op left right, bound => by
    rcases hs : op.symbol? with _ | symbol
    · rw [compile_binary_of_none hs]
      simp [offences, nodes, offence?, BinaryOp.symbol?_eq_none.1 hs, Reports]
    · rw [offences_binary hs]
      refine (compile_reports entity left bound).append (fun text hl => ?_) (fun refusal hl => ?_)
      · rw [compile_binary_of_ok hs hl]
        exact (compile_reports entity right _).map (symbol.join text)
      · rw [compile_binary_of_error hs hl]
  | .not _, _ => rfl
  | .negate _, _ => rfl
  | .call _ _, _ => rfl
  | .conditional _ _ _, _ => rfl

/-- The nodes ahead of the first that offends. -/
def ahead (entity : Entity) (e : Expr) : List Expr :=
  e.nodes.takeWhile fun node => (node.offence? entity).isNone

theorem ahead_eq_nodes_iff {e : Expr} : e.ahead entity = e.nodes ↔ e.offences entity = [] := by
  unfold ahead offences
  rw [List.takeWhile_eq_self_iff, List.filterMap_eq_nil_iff]
  simp only [Option.isNone_iff_eq_none]

theorem ahead_binary (h : op.symbol? = some symbol) :
    (binary op left right).ahead entity = .binary op left right ::
      (if left.offences entity = [] then left.nodes ++ right.ahead entity
        else left.ahead entity) := by
  have hb : offence? entity (.binary op left right) = none := by
    simp [offence?, BinaryOp.not_isArithmetic h]
  -- `takeWhile` of an append asks by length whether all of the left list was taken
  have hlen : (left.ahead entity).length = left.nodes.length ↔ left.offences entity = [] := by
    rw [← ahead_eq_nodes_iff]
    exact ⟨(List.takeWhile_prefix _).eq_of_length, congrArg List.length⟩
  unfold ahead at hlen ⊢
  rw [nodes, List.takeWhile_cons, hb, List.takeWhile_append]
  simp only [hlen, Option.isNone_none, if_true]

/-- The constants bound on the way are those ahead of the first offence. -/
theorem compile_literals (entity : Entity) :
    ∀ (e : Expr) (bound : Nat),
      (e.compile entity bound).literals = (e.ahead entity).filterMap constant?
  | .member name, bound => by
    have hm : constant? (.member name) = none := rfl
    simp only [compile, ahead, nodes, List.takeWhile]
    split <;> simp [hm]
  | .constant value, bound => rfl
  | .binary op left right, bound => by
    have hb : constant? (.binary op left right) = none := rfl
    rcases hs : op.symbol? with _ | symbol
    · rw [compile_binary_of_none hs]
      simp [ahead, nodes, offence?, BinaryOp.symbol?_eq_none.1 hs]
    · rw [ahead_binary hs, List.filterMap_cons_none hb]
      have hreports := compile_reports entity left bound
      rcases hl : (left.compile entity bound).result with refusal | text
      · have hne : left.offences entity ≠ [] := by
          rw [ne_eq, ← hreports.ok_iff, hl]
          simp
        rw [compile_binary_of_error hs hl, if_neg hne]
        exact compile_literals entity left bound
      · have hnil : left.offences entity = [] := hreports.ok_iff.1 ⟨text, hl⟩
        rw [compile_binary_of_ok hs hl, if_pos hnil, List.filterMap_append,
          ← compile_literals entity right, compile_literals entity left bound,
          ahead_eq_nodes_iff.2 hnil]
  | .not _, _ => rfl
  | .negate _, _ => rfl
  | .call _ _, _ => rfl
  | .conditional _ _ _, _ => rfl

/-- An expression that compiles binds all its constants. -/
theorem literals_of_ok {e : Expr} {text : String}
    (h : (e.compile entity bound).result = .ok text) :
    (e.compile entity bound).literals = e.constants := by
  have hnil : e.offences entity = [] := (compile_reports entity e bound).ok_iff.1 ⟨text, h⟩
  rw [compile_literals, ahead_eq_nodes_iff.2 hnil, constants]

end Expr

end EntityFlux
