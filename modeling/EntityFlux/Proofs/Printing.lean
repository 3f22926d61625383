import EntityFlux.Proofs.Precedence

/-!
# Writing trees out

A tree is written with parentheses around the operands of its connectives and none around those of
its comparisons (`Tree.tokens`). What is written can always be read, but not always as the tree it
was written from: that depends on how strong the operators are, and only on the operands of the
comparisons (`readTokens_tokens_iff`).
-/

namespace EntityFlux

def BinaryOp.isComparison : BinaryOp → Bool
  | .equal | .notEqual | .lessThan | .lessThanOrEqual | .greaterThan | .greaterThanOrEqual => true
  | _ => false

/-- The number of parentheses on each side of an operand. -/
def BinaryOp.enclosure (op : BinaryOp) : Nat := if op.isComparison then 0 else 1

namespace Flux

def enclose (depth : Nat) (tokens : List Token) : List Token :=
  List.replicate depth .opening ++ (tokens ++ List.replicate depth .closing)

def Tree.tokens : Tree → List Token
  | .operand x => [.operand x]
  | .joined op l r => enclose op.enclosure l.tokens ++ .operator op :: enclose op.enclosure r.tokens

/-- The operator that is applied last. -/
def Tree.operator? : Tree → Option BinaryOp
  | .operand _ => none
  | .joined op _ _ => some op

def Tree.BindsFrom (strength : BinaryOp → Nat) (level : Nat) (tree : Tree) : Prop :=
  ∀ op ∈ tree.operator?, level ≤ strength op

/-- The operands of every comparison bind tightly enough to do without parentheses. -/
def Tree.Fits (strength : BinaryOp → Nat) : Tree → Prop
  | .operand _ => True
  | .joined op l r =>
    (op.isComparison →
      l.BindsFrom strength (strength op) ∧ r.BindsFrom strength (strength op + 1))
    ∧ l.Fits strength ∧ r.Fits strength

/-- Tokens that can stand for a tree if precedence is left out of account. -/
inductive Spelled : List Token → Tree → Prop
  | operand (operand : Operand) : Spelled [.operand operand] (.operand operand)
  | enclosed {tokens : List Token} {tree : Tree} (h : Spelled tokens tree) :
    Spelled (.opening :: (tokens ++ [.closing])) tree
  | joined (op : BinaryOp) {left right : List Token} {l r : Tree} (hleft : Spelled left l)
      (hright : Spelled right r) :
    Spelled (left ++ .operator op :: right) (.joined op l r)

section Enclosing

variable {tokens : List Token} {tree : Tree}

@[simp] theorem enclose_zero (tokens : List Token) : enclose 0 tokens = tokens := by
  simp [enclose]

theorem enclose_succ (depth : Nat) (tokens : List Token) :
    enclose (depth + 1) tokens = .opening :: (enclose depth tokens ++ [.closing]) := by
  simp [enclose, List.replicate_succ, ← List.replicate_succ']

theorem Spelled.enclose (h : Spelled tokens tree) (depth : Nat) :
    Spelled (enclose depth tokens) tree := by
  induction depth with
  | zero => rwa [enclose_zero]
  | succ depth ih =>
    rw [enclose_succ]
    exact ih.enclosed

theorem Tree.spelled_tokens (tree : Tree) : Spelled tree.tokens tree := by
  induction tree with
  | operand x => exact .operand x
  | joined op l r ihl ihr => exact .joined op (ihl.enclose _) (ihr.enclose _)

end Enclosing

/-! ## Counting tokens -/

def Token.isOperator : Token → Bool
  | .operator _ => true
  | _ => false

def Tree.joins : Tree → Nat
  | .operand _ => 0
  | .joined _ l r => l.joins + r.joins + 1

section Counting

variable {strength : BinaryOp → Nat} {level : Nat} {tokens : List Token} {tree : Tree}

theorem Spelled.countP_isOperator (h : Spelled tokens tree) :
    tokens.countP Token.isOperator = tree.joins := by
  induction h with
  | operand x => rfl
  | enclosed h ih => simp [Token.isOperator, ih]
  | joined op hleft hright ihl ihr =>
    simp only [List.countP_append, List.countP_cons, Token.isOperator, ihl, ihr, if_true,
      Tree.joins]
    omega

theorem Spelled.count_opening (h : Spelled tokens tree) :
    tokens.count .opening = tokens.count .closing := by
  induction h with
  | operand x => rfl
  | enclosed h ih => simp [ih]
  | joined op hleft hright ihl ihr => simp [ihl, ihr]

theorem Phrase.spelled (h : Phrase strength level tokens tree) : Spelled tokens tree := by
  induction h with
  | operand level x => exact .operand x
  | enclosed level h ih => exact .enclosed ih
  | joined hlevel hleft hright ihl ihr => exact .joined _ ihl ihr

theorem operator_head {more rear rear' : List Token} {op op' : BinaryOp}
    (h : .operator op :: rear = more ++ .operator op' :: rear')
    (hcount : more.countP Token.isOperator = 0) : more = [] ∧ rear = rear' := by
  cases more with
  | nil => exact ⟨rfl, (List.cons.inj h).2⟩
  | cons token more =>
    obtain ⟨rfl, -⟩ := List.cons.inj h
    simp [Token.isOperator] at hcount

/-- Two cuts at an operator with as many operators in front are the same cut. -/
theorem operator_split {front rear front' rear' : List Token} {op op' : BinaryOp}
    (h : front ++ .operator op :: rear = front' ++ .operator op' :: rear')
    (hcount : front.countP Token.isOperator = front'.countP Token.isOperator) :
    front = front' ∧ rear = rear' := by
  rcases List.append_eq_append_iff.1 h with ⟨more, rfl, hmore⟩ | ⟨more, rfl, hmore⟩
  · obtain ⟨rfl, rfl⟩ := operator_head hmore (by simpa using hcount)
    exact ⟨(List.append_nil _).symm, rfl⟩
  · obtain ⟨rfl, rfl⟩ := operator_head hmore (by simpa using hcount)
    exact ⟨List.append_nil _, rfl⟩

end Counting

/-! ## Reading what was written -/

section Fitting

variable {strength : BinaryOp → Nat} {level depth : Nat} {tokens : List Token} {tree : Tree}

/-- Inside of its parentheses a phrase is cut where its last operator stands. -/
theorem Phrase.cut {op : BinaryOp} {l r : Tree}
    (h : Phrase strength level tokens (.joined op l r)) :
    ∃ depth left right, tokens = enclose depth (left ++ .operator op :: right)
      ∧ Phrase strength (strength op) left l ∧ Phrase strength (strength op + 1) right r
      ∧ (depth = 0 → level ≤ strength op) := by
  generalize htree : Tree.joined op l r = tree at h
  induction h with
  | operand level x => cases htree
  | enclosed level h ih =>
    obtain ⟨depth, left, right, rfl, hleft, hright, -⟩ := ih htree
    exact ⟨depth + 1, left, right, (enclose_succ _ _).symm, hleft, hright, by simp⟩
  | @joined level op' left right l r hlevel hleft hright ihl ihr =>
    cases htree
    exact ⟨0, left, right, (enclose_zero _).symm, hleft, hright, fun _ => hlevel⟩

/-- A phrase that stands for the tree it was written from is cut where the tree was joined: there
are as many operators ahead of the cut, and then as many parentheses around it. -/
theorem Phrase.fits (h : Phrase strength level (enclose depth tree.tokens) tree) :
    tree.Fits strength ∧ (depth = 0 → tree.BindsFrom strength level) := by
  induction tree generalizing level depth with
  | operand x => exact ⟨trivial, fun _ op hop => by simp [Tree.operator?] at hop⟩
  | joined op l r ihl ihr =>
    obtain ⟨depth', left, right, heq, hleft, hright, hlevel⟩ := h.cut
    have hl := l.spelled_tokens.enclose op.enclosure
    have hr := r.spelled_tokens.enclose op.enclosure
    have hsplit : (List.replicate depth .opening ++ enclose op.enclosure l.tokens)
          ++ .operator op :: (enclose op.enclosure r.tokens ++ List.replicate depth .closing)
        = (List.replicate depth' .opening ++ left)
          ++ .operator op :: (right ++ List.replicate depth' .closing) := by
      simpa [enclose, Tree.tokens] using heq
    obtain ⟨hfront, hrear⟩ := operator_split hsplit (by
      simp [List.countP_append, List.countP_replicate, Token.isOperator, hl.countP_isOperator,
        hleft.spelled.countP_isOperator])
    obtain rfl : depth = depth' := by
      have hopening := congrArg (List.count .opening) hfront
      have hclosing := congrArg (List.count .closing) hfront
      have hcount := hl.count_opening
      have hcount' := hleft.spelled.count_opening
      simp [List.count_replicate] at hopening hclosing
      omega
    obtain rfl := List.append_cancel_left hfront
    obtain rfl := List.append_cancel_right hrear
    obtain ⟨hfl, hbl⟩ := ihl hleft
    obtain ⟨hfr, hbr⟩ := ihr hright
    refine ⟨⟨fun hop => ?_, hfl, hfr⟩, fun hdepth op' hop' => ?_⟩
    · have henclosure : op.enclosure = 0 := if_pos hop
      exact ⟨hbl henclosure, hbr henclosure⟩
    · obtain rfl : op = op' := by simpa [Tree.operator?] using hop'
      exact hlevel hdepth

theorem Tree.Fits.phrase (h : tree.Fits strength) (hlevel : tree.BindsFrom strength level) :
    Phrase strength level tree.tokens tree := by
  induction tree generalizing level with
  | operand x => exact .operand level x
  | joined op l r ihl ihr =>
    obtain ⟨hop, hl, hr⟩ := h
    have hzero : ∀ tree : Tree, tree.BindsFrom strength 0 := fun _ _ _ => Nat.zero_le _
    refine .joined (hlevel op rfl) ?_ ?_
    · by_cases hc : op.isComparison
      · simpa [BinaryOp.enclosure, hc] using ihl hl (hop hc).1
      · simpa [BinaryOp.enclosure, hc, enclose_succ] using .enclosed _ (ihl hl (hzero l))
    · by_cases hc : op.isComparison
      · simpa [BinaryOp.enclosure, hc] using ihr hr (hop hc).2
      · simpa [BinaryOp.enclosure, hc, enclose_succ] using .enclosed _ (ihr hr (hzero r))

/-- A tree is read back exactly if its comparisons can do without parentheses. -/
theorem readTokens_tokens_iff :
    readTokens strength tree.tokens = some tree ↔ tree.Fits strength := by
  rw [readTokens_eq_some_iff]
  refine ⟨fun h => ?_, fun h => h.phrase fun _ _ => Nat.zero_le _⟩
  have hzero : Phrase strength 0 (enclose 0 tree.tokens) tree := by rwa [enclose_zero]
  exact hzero.fits.1

/-- Whatever waits, the reader comes through and has an operand behind it. -/
theorem Spelled.foldlM_step (h : Spelled tokens tree) (pending : Pending) (outer : List Pending) :
    ∃ waiting value, tokens.foldlM (Reader.step strength) ⟨pending, none, outer⟩
      = some ⟨waiting, some value, outer⟩ := by
  induction h generalizing pending outer with
  | operand x => exact ⟨pending, .operand x, rfl⟩
  | enclosed h ih =>
    obtain ⟨waiting, value, hrun⟩ := ih [] (pending :: outer)
    refine ⟨pending, (reduce strength 0 value waiting).1, ?_⟩
    rw [List.foldlM_cons, Reader.step, Option.bind_eq_bind, Option.bind_some, List.foldlM_append,
      hrun]
    rfl
  | joined op hleft hright ihl ihr =>
    obtain ⟨waiting, value, hrun⟩ := ihl pending outer
    obtain ⟨waiting', value', hrun'⟩ :=
      ihr (((reduce strength (strength op) value waiting).1, op)
        :: (reduce strength (strength op) value waiting).2) outer
    refine ⟨waiting', value', ?_⟩
    rw [List.foldlM_append, hrun, Option.bind_eq_bind, Option.bind_some, List.foldlM_cons]
    exact hrun'

/-- Whatever the strengths, what can be spelled can be read. -/
theorem Spelled.exists_readTokens (strength : BinaryOp → Nat) (h : Spelled tokens tree) :
    ∃ other, readTokens strength tokens = some other := by
  obtain ⟨waiting, value, hrun⟩ := h.foldlM_step [] []
  exact ⟨_, by rw [readTokens, hrun, Option.bind_some, Reader.finish]⟩

end Fitting

end Flux

end EntityFlux
