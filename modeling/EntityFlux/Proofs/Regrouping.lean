import EntityFlux.Proofs.Readings

/-!
# Regrouping comparisons

The operands of a comparison are written without parentheses, so comparisons that follow each other
can be grouped in different ways and the fragment does not show how. That is all a fragment hides:
two expressions have the same fragment and bind the same constants exactly if one becomes the other
by regrouping comparisons and by exchanging members of the same column
(`Expr.same_fragment_iff_regrouped`). Behind this stands one grouping out of many, the one that
leans to the left (`Expr.leftNested`), which can be read off the fragment.
-/

namespace EntityFlux

open Flux

/-- The same operators over the same constants and over members of the same columns. -/
inductive Expr.Alike (entity : Entity) : Expr → Expr → Prop
  | member {a b : String} (h : entity.resolve a = entity.resolve b) :
    Alike entity (.member a) (.member b)
  | constant (value : Literal) : Alike entity (.constant value) (.constant value)
  | binary (op : BinaryOp) {left left' right right' : Expr} (hleft : Alike entity left left')
      (hright : Alike entity right right') :
    Alike entity (.binary op left right) (.binary op left' right')

/-- Alike up to the grouping of comparisons that follow each other. -/
inductive Expr.Regrouped (entity : Entity) : Expr → Expr → Prop
  | refl (e : Expr) : Regrouped entity e e
  | member {a b : String} (h : entity.resolve a = entity.resolve b) :
    Regrouped entity (.member a) (.member b)
  | rotate {op op' : BinaryOp} (h : op.isComparison) (h' : op'.isComparison)
      (left middle right : Expr) :
    Regrouped entity (.binary op' (.binary op left middle) right)
      (.binary op left (.binary op' middle right))
  | binary (op : BinaryOp) {left left' right right' : Expr} (hleft : Regrouped entity left left')
      (hright : Regrouped entity right right') :
    Regrouped entity (.binary op left right) (.binary op left' right')
  | symm {e e' : Expr} (h : Regrouped entity e e') : Regrouped entity e' e
  | trans {e e' e'' : Expr} (h : Regrouped entity e e') (h' : Regrouped entity e' e'') :
    Regrouped entity e e''

theorem BinaryOp.symbol?_of_isComparison {op : BinaryOp} (h : op.isComparison) :
    ∃ text, op.symbol? = some (.comparison text) := by
  cases op <;> simp_all [isComparison, symbol?]

section Regrouping

variable {entity : Entity} {e e' : Expr} {bound : Nat} {text : String}

theorem Expr.Alike.regrouped (h : e.Alike entity e') : e.Regrouped entity e' := by
  induction h with
  | member h => exact .member h
  | constant value => exact .refl _
  | binary op _ _ ihl ihr => exact .binary op ihl ihr

/-- Two comparisons go through their three operands from left to right, whichever comes first. -/
theorem Expr.compile_rotate {op op' : BinaryOp} (h : op.isComparison) (h' : op'.isComparison)
    (left middle right : Expr) (bound : Nat) :
    (binary op' (.binary op left middle) right).compile entity bound
      = (binary op left (.binary op' middle right)).compile entity bound := by
  obtain ⟨symbol, hs⟩ := BinaryOp.symbol?_of_isComparison h
  obtain ⟨symbol', hs'⟩ := BinaryOp.symbol?_of_isComparison h'
  simp only [compile, hs, hs']
  rcases hl : (left.compile entity bound).result with refusal | leftText
  · rfl
  · rcases hm : (middle.compile entity
      (bound + (left.compile entity bound).literals.length)).result with refusal | middleText
    · rfl
    · simp only [Except.map, List.length_append, Nat.add_assoc, List.append_assoc]
      rcases (right.compile entity _).result with refusal | rightText
      · rfl
      · simp [Symbol.join, String.append_assoc]

/-- The compiler does not see how comparisons are grouped, whether it refuses or not. -/
theorem Expr.Regrouped.compile_eq (h : e.Regrouped entity e') (bound : Nat) :
    e.compile entity bound = e'.compile entity bound := by
  induction h generalizing bound with
  | refl e => rfl
  | member h => simp only [compile, h]
  | rotate h h' left middle right => exact compile_rotate h h' left middle right bound
  | binary op _ _ ihl ihr => simp only [compile, ihl, ihr]
  | symm _ ih => exact (ih bound).symm
  | trans _ _ ih ih' => exact (ih bound).trans (ih' bound)

theorem Expr.columns_member_eq (name : String) :
    (member name).columns entity = (entity.resolve name).toOption.toList := by
  unfold Entity.resolve
  rcases hr : entity.role? name with _ | role <;> simp [columns, hr, Except.toOption]

theorem Expr.Regrouped.columns_eq (h : e.Regrouped entity e') :
    e.columns entity = e'.columns entity := by
  induction h with
  | refl e => rfl
  | member h => rw [columns_member_eq, columns_member_eq, h]
  | rotate h h' left middle right => simp
  | binary op _ _ ihl ihr => rw [columns_binary, columns_binary, ihl, ihr]
  | symm _ ih => exact ih.symm
  | trans _ _ ih ih' => exact ih.trans ih'

end Regrouping

/-! ## Leaning to the left -/

/-- Puts `left` and `op` in front of a chain of comparisons. -/
def Expr.graft (op : BinaryOp) (left : Expr) : Expr → Expr
  | .binary op' first last =>
    if op'.isComparison then .binary op' (graft op left first) last
    else .binary op left (.binary op' first last)
  | e => .binary op left e

/-- Groups all comparisons from the left. -/
def Expr.leftNested : Expr → Expr
  | .binary op left right =>
    if op.isComparison then graft op left.leftNested right.leftNested
    else .binary op left.leftNested right.leftNested
  | e => e

/-- No comparison has a comparison for its right operand. -/
def Expr.LeansLeft (e : Expr) : Prop :=
  e.EachComparison fun _ right => right.isComparison = false

/-- Strengths under which a chain of comparisons is read from the left and no connective is taken
apart. -/
def chainStrength (op : BinaryOp) : Nat := if op.isComparison then 0 else 1

section Leaning

variable {entity : Entity} {e e' : Expr} {bound : Nat} {text : String}

theorem Expr.regrouped_graft {op : BinaryOp} (h : op.isComparison) (left : Expr) :
    ∀ e : Expr, (binary op left e).Regrouped entity (graft op left e)
  | .binary op' first last => by
    by_cases hop : op'.isComparison
    · rw [graft, if_pos hop]
      exact (Regrouped.rotate h hop left first last).symm.trans
        (.binary op' (regrouped_graft h left first) (.refl last))
    · rw [graft, if_neg hop]
      exact .refl _
  | .member _ | .constant _ | .not _ | .negate _ | .call _ _ | .conditional _ _ _ => .refl _

theorem Expr.regrouped_leftNested (entity : Entity) :
    ∀ e : Expr, e.Regrouped entity e.leftNested
  | .binary op left right => by
    have hboth : (binary op left right).Regrouped entity
        (.binary op left.leftNested right.leftNested) :=
      .binary op (regrouped_leftNested entity left) (regrouped_leftNested entity right)
    by_cases hop : op.isComparison
    · rw [leftNested, if_pos hop]
      exact hboth.trans (regrouped_graft hop _ _)
    · rwa [leftNested, if_neg hop]
  | .member _ | .constant _ | .not _ | .negate _ | .call _ _ | .conditional _ _ _ => .refl _

theorem Expr.leansLeft_graft (op : BinaryOp) {left : Expr} (hleft : left.LeansLeft) :
    ∀ {e : Expr}, e.LeansLeft → (graft op left e).LeansLeft
  | .binary op' first last, h => by
    by_cases hop : op'.isComparison
    · obtain ⟨htop, hfirst, hlast⟩ := eachComparison_binary.1 h
      rw [graft, if_pos hop]
      exact eachComparison_binary.2 ⟨htop, leansLeft_graft op hleft hfirst, hlast⟩
    · rw [graft, if_neg hop]
      exact eachComparison_binary.2 ⟨fun _ => by simpa [isComparison] using hop, hleft, h⟩
  | .member _, h | .constant _, h | .not _, h | .negate _, h | .call _ _, h
  | .conditional _ _ _, h => eachComparison_binary.2 ⟨fun _ => rfl, hleft, h⟩

theorem Expr.leansLeft_leftNested (h : (e.compile entity bound).result = .ok text) :
    e.leftNested.LeansLeft := by
  refine compile_ok_induction (motive := fun e _ _ => e.leftNested.LeansLeft) ?_ ?_ ?_ e h
  · intro name role bound _
    exact eachComparison_member name
  · intro value bound
    exact eachComparison_constant value
  · intro op symbol left right bound _ _ _ _ _ ihl ihr
    by_cases hop : op.isComparison
    · rw [leftNested, if_pos hop]
      exact leansLeft_graft op ihl ihr
    · rw [leftNested, if_neg hop]
      exact eachComparison_binary.2 ⟨fun hop' => absurd hop' hop, ihl, ihr⟩

theorem Expr.Tops.bindsFrom_one_iff {tree : Tree} (h : e.Tops tree) :
    tree.BindsFrom chainStrength 1 ↔ e.isComparison = false := by
  cases h with
  | @operand e h x =>
    cases e <;> simp_all [Tree.BindsFrom, Tree.operator?, isComparison, isOperand]
  | @joined op h left right l r =>
    by_cases hop : op.isComparison <;>
      simp [Tree.BindsFrom, Tree.operator?, isComparison, chainStrength, hop]

/-- A grouping that leans to the left is read off the tokens of its fragment. -/
theorem Expr.LeansLeft.fits (hleans : e.LeansLeft)
    (h : (e.compile entity bound).result = .ok text) {tree : Tree}
    (htree : e.tree? entity bound = some tree) : tree.Fits chainStrength := by
  refine (fits_iff h htree ?_).2 hleans
  intro op left right l r hop _ htop
  have hzero : chainStrength op = 0 := if_pos hop
  rw [hzero, htop.bindsFrom_one_iff]
  exact and_iff_right fun _ _ => Nat.zero_le _

end Leaning

/-! ## Reading expressions off trees -/

section Trees

variable {entity : Entity} {e e' : Expr} {bound : Nat}

theorem Expr.tree?_eq_column {column : String}
    (h : e.tree? entity bound = some (.operand (.column column))) :
    ∃ name, e = .member name ∧ entity.resolve name = .ok column := by
  cases e with
  | member name =>
    obtain ⟨role, hr, hcolumn⟩ : ∃ role, entity.role? name = some role ∧ role.column = column := by
      simpa [tree?] using h
    exact ⟨name, rfl, Entity.resolve_eq_ok.2 ⟨role, hr, hcolumn⟩⟩
  | _ => simp [tree?, Option.bind_eq_some_iff] at h

theorem Expr.tree?_eq_parameter {name : String}
    (h : e.tree? entity bound = some (.operand (.parameter name))) :
    ∃ value, e = .constant value := by
  cases e with
  | constant value => exact ⟨value, rfl⟩
  | _ => simp [tree?, Option.bind_eq_some_iff] at h

theorem Expr.tree?_eq_joined {op : BinaryOp} {l r : Tree}
    (h : e.tree? entity bound = some (.joined op l r)) :
    ∃ left right, e = .binary op left right ∧ left.tree? entity bound = some l
      ∧ right.tree? entity (bound + left.constants.length) = some r := by
  cases e with
  | binary op' left right =>
    obtain ⟨rfl, hl, hr⟩ : op' = op ∧ left.tree? entity bound = some l
        ∧ right.tree? entity (bound + left.constants.length) = some r := by
      simpa [tree?, Option.bind_eq_some_iff, and_left_comm, and_assoc] using h
    exact ⟨left, right, rfl, hl, hr⟩
  | _ => simp [tree?] at h

/-- The tree of an expression and its constants leave nothing open but the names of the members.
What follows the constants of the two expressions is the same, too. -/
theorem Expr.alike_of_tree? {tree : Tree} {rest rest' : List Literal}
    (h : e.tree? entity bound = some tree) (h' : e'.tree? entity bound = some tree)
    (hconstants : e.constants ++ rest = e'.constants ++ rest') :
    e.Alike entity e' ∧ rest = rest' := by
  induction tree generalizing e e' bound rest rest' with
  | operand x =>
    cases x with
    | column column =>
      obtain ⟨name, rfl, hname⟩ := tree?_eq_column h
      obtain ⟨name', rfl, hname'⟩ := tree?_eq_column h'
      exact ⟨.member (hname.trans hname'.symm), hconstants⟩
    | parameter name =>
      obtain ⟨value, rfl⟩ := tree?_eq_parameter h
      obtain ⟨value', rfl⟩ := tree?_eq_parameter h'
      obtain ⟨rfl, hrest⟩ := List.cons.inj hconstants
      exact ⟨.constant value, hrest⟩
  | joined op l r ihl ihr =>
    obtain ⟨left, right, rfl, hl, hr⟩ := tree?_eq_joined h
    obtain ⟨left', right', rfl, hl', hr'⟩ := tree?_eq_joined h'
    simp only [constants_binary, List.append_assoc] at hconstants
    obtain ⟨hleft, hmore⟩ := ihl hl hl' hconstants
    have hlength : left.constants = left'.constants := by
      rw [hmore] at hconstants
      exact List.append_cancel_right hconstants
    rw [← hlength] at hr'
    obtain ⟨hright, hrest⟩ := ihr hr hr' hmore
    exact ⟨.binary op hleft hright, hrest⟩

end Trees

section Fragments

variable {entity : Entity} {e e' : Expr} {bound : Nat} {text text' : String}

/-- Groupings that lean to the left do not collide. -/
theorem Expr.LeansLeft.alike (hleans : e.LeansLeft) (hleans' : e'.LeansLeft)
    (h : (e.compile entity bound).result = .ok text)
    (h' : (e'.compile entity bound).result = .ok text)
    (hplain : ∀ column ∈ e.columns entity, IsPlain column)
    (hplain' : ∀ column ∈ e'.columns entity, IsPlain column)
    (hconstants : e.constants = e'.constants) : e.Alike entity e' := by
  obtain ⟨tree, htree, hreads⟩ := reads_of_ok h hplain
  obtain ⟨tree', htree', hreads'⟩ := reads_of_ok h' hplain'
  have htokens : tree.tokens = tree'.tokens :=
    Option.some.inj (hreads.tokens?.symm.trans hreads'.tokens?)
  have hread := readTokens_tokens_iff.2 (hleans.fits h htree)
  have hread' := readTokens_tokens_iff.2 (hleans'.fits h' htree')
  obtain rfl : tree = tree' := by
    rw [htokens] at hread
    exact Option.some.inj (hread.symm.trans hread')
  exact (alike_of_tree? htree htree' (congrArg (· ++ []) hconstants)).1

/-- Expressions of the same fragment that bind the same constants differ in the grouping of their
comparisons and in nothing else but members of the same column. -/
theorem Expr.regrouped_of_text (h : (e.compile entity bound).result = .ok text)
    (h' : (e'.compile entity bound).result = .ok text)
    (hplain : ∀ column ∈ e.columns entity, IsPlain column)
    (hplain' : ∀ column ∈ e'.columns entity, IsPlain column)
    (hliterals : (e.compile entity bound).literals = (e'.compile entity bound).literals) :
    e.Regrouped entity e' := by
  have hnested := regrouped_leftNested entity e
  have hnested' := regrouped_leftNested entity e'
  have hok : (e.leftNested.compile entity bound).result = .ok text := by
    rwa [← hnested.compile_eq]
  have hok' : (e'.leftNested.compile entity bound).result = .ok text := by
    rwa [← hnested'.compile_eq]
  rw [hnested.columns_eq] at hplain
  rw [hnested'.columns_eq] at hplain'
  rw [hnested.compile_eq, hnested'.compile_eq, literals_of_ok hok, literals_of_ok hok']
    at hliterals
  have halike := (leansLeft_leftNested h).alike (leansLeft_leftNested h') hok hok' hplain hplain'
    hliterals
  exact hnested.trans (halike.regrouped.trans hnested'.symm)

end Fragments

/-- Two accepted expressions with plain columns have the same fragment and bind the same constants
exactly if one becomes the other by regrouping comparisons that follow each other and exchanging
members of the same column. Where no comparison has a comparison for its right operand, no two
groupings collide. -/
theorem Expr.same_fragment_iff_regrouped {entity : Entity} {e e' : Expr} {bound : Nat}
    {text text' : String} (h : (e.compile entity bound).result = .ok text)
    (h' : (e'.compile entity bound).result = .ok text')
    (hplain : ∀ column ∈ e.columns entity, IsPlain column)
    (hplain' : ∀ column ∈ e'.columns entity, IsPlain column) :
    (text = text' ∧ (e.compile entity bound).literals = (e'.compile entity bound).literals
        ↔ e.Regrouped entity e')
      ∧ (e.LeansLeft → e'.LeansLeft →
        (text = text' ∧ (e.compile entity bound).literals = (e'.compile entity bound).literals
          ↔ e.Alike entity e')) := by
  have hsame : e.Regrouped entity e' →
      text = text' ∧ (e.compile entity bound).literals = (e'.compile entity bound).literals := by
    intro hregrouped
    have hcompile := hregrouped.compile_eq bound
    refine ⟨?_, by rw [hcompile]⟩
    rw [hcompile, h'] at h
    exact (Except.ok.inj h).symm
  refine ⟨⟨?_, hsame⟩, fun hleans hleans' => ⟨?_, fun halike => hsame halike.regrouped⟩⟩
  · rintro ⟨rfl, hliterals⟩
    exact regrouped_of_text h h' hplain hplain' hliterals
  · rintro ⟨rfl, hliterals⟩
    rw [literals_of_ok h, literals_of_ok h'] at hliterals
    exact hleans.alike hleans' h h' hplain hplain' hliterals

theorem Expr.same_fragment_iff_regrouped_sample :
    let entity : Entity :=
      { name := "S", members := [("A", .tag "a"), ("D", .tag "a"), ("B", .field "b")] }
    let left : Expr :=
      .binary .lessThan (.binary .equal (.member "A") (.constant (.integer 1))) (.member "B")
    let right : Expr :=
      .binary .equal (.member "D") (.binary .lessThan (.constant (.integer 1)) (.member "B"))
    left.Regrouped entity right ∧ ¬ left.Alike entity right := by
  intro entity left right
  have hleft : (left.compile entity 2).result = .ok "r[\"a\"] == p3 < r[\"b\"]" := by decide
  have hright : (right.compile entity 2).result = .ok "r[\"a\"] == p3 < r[\"b\"]" := by decide
  have hsame := Expr.same_fragment_iff_regrouped hleft hright (by decide) (by decide)
  refine ⟨hsame.1.1 ⟨rfl, rfl⟩, ?_⟩
  intro halike
  simp only [left, right] at halike
  cases halike

/-- A comparison as the right operand of a comparison is lost: the fragment is that of the other
grouping. -/
theorem Expr.groupings_collide :
    let entity : Entity :=
      { name := "S", members := [("A", .tag "a"), ("B", .tag "b"), ("C", .tag "c")] }
    let left : Expr := .binary .equal (.binary .equal (.member "A") (.member "B")) (.member "C")
    let right : Expr := .binary .equal (.member "A") (.binary .equal (.member "B") (.member "C"))
    (left.compile entity 0).result = .ok "r[\"a\"] == r[\"b\"] == r[\"c\"]"
      ∧ (right.compile entity 0).result = .ok "r[\"a\"] == r[\"b\"] == r[\"c\"]"
      ∧ (left.compile entity 0).literals = (right.compile entity 0).literals
      ∧ (∀ column ∈ left.columns entity ++ right.columns entity, IsPlain column)
      ∧ ¬ left.Alike entity right := by
  intro entity left right
  refine ⟨by decide, by decide, rfl, by decide, fun halike => ?_⟩
  simp only [left, right] at halike
  cases halike with
  | binary op hleft hright => cases hleft

end EntityFlux
