import EntityFlux.Proofs.Renaming
import EntityFlux.Proofs.SharedParameters

/-!
# Compiling behind other parameters

What an expression compiles to depends on the parameters ahead of it only through their number, and
that shows only in the names of its own: behind other parameters it is refused for the same reason,
or binds the same constants and has the same fragment with the references moved along. A fragment
closes the parentheses that it opens (`Expr.nesting_of_ok`).
-/

namespace EntityFlux

open Flux

/-! ## Parentheses -/

/-- How many parentheses are open behind a text in front of which `depth` are; nothing, if one is
closed that was not open. -/
def nesting : Nat → List Lexeme → Option Nat
  | depth, [] => some depth
  | depth, .code '(' :: rest => nesting (depth + 1) rest
  | 0, .code ')' :: _ => none
  | depth + 1, .code ')' :: rest => nesting depth rest
  | depth, _ :: rest => nesting depth rest

theorem nesting_append (depth : Nat) (a b : List Lexeme) :
    nesting depth (a ++ b) = (nesting depth a).bind (nesting · b) := by
  fun_induction nesting depth a with
  | case1 => rfl
  | case2 depth rest ih => rw [List.cons_append, nesting, ih]
  | case3 rest => rfl
  | case4 depth rest ih => rw [List.cons_append, nesting, ih]
  | case5 depth lexeme rest hopen hclose hclose' ih =>
    rw [List.cons_append, nesting, ih]
    · exact hopen
    · exact hclose
    · exact hclose'

theorem nesting_of_plain {cs : List Char} (hopen : '(' ∉ cs) (hclose : ')' ∉ cs) (depth : Nat) :
    nesting depth (cs.map .code) = some depth := by
  induction cs with
  | nil => rfl
  | cons c cs ih =>
    simp only [List.mem_cons, not_or] at hopen hclose
    rw [List.map_cons, nesting, ih hopen.2 hclose.2]
    · rintro h
      exact hopen.1 (Lexeme.code.inj h).symm
    · rintro - h
      exact hclose.1 (Lexeme.code.inj h).symm
    · rintro _ - h
      exact hclose.1 (Lexeme.code.inj h).symm

theorem nesting_parameterName (depth position : Nat) :
    nesting depth (lex (parameterName position)) = some depth := by
  have hletters : ∀ c, c.isAlphanum = false → c ∉ (parameterName position).toList := by
    intro c hc hmem
    rw [isAlphanum_of_mem_parameterName hmem] at hc
    cases hc
  rw [lex_of_no_quote (hletters '"' (by decide))]
  exact nesting_of_plain (hletters '(' (by decide)) (hletters ')' (by decide)) depth

/-- Around its operands a symbol opens as many parentheses as it closes, the same for both. -/
theorem Symbol.nesting_marks {op : BinaryOp} {symbol : Symbol} (h : op.symbol? = some symbol) :
    ∃ opened, ∀ depth, nesting depth (lex symbol.before) = some (depth + opened)
      ∧ nesting (depth + opened) (lex symbol.between) = some (depth + opened)
      ∧ nesting (depth + opened) (lex symbol.after) = some depth := by
  cases op <;> simp only [BinaryOp.symbol?, Option.some.injEq, reduceCtorEq] at h <;> subst h
  case andAlso | orElse => exact ⟨1, fun _ => ⟨rfl, rfl, rfl⟩⟩
  all_goals exact ⟨0, fun _ => ⟨rfl, rfl, rfl⟩⟩

section Fragments

variable {entity : Entity} {e : Expr} {bound : Nat} {text : String}

/-- A fragment closes the parentheses that it opens, and no others. -/
theorem Expr.nesting_of_ok (h : (e.compile entity bound).result = .ok text)
    (hplain : ∀ column ∈ e.columns entity, IsPlain column) (depth : Nat) :
    nesting depth (lex text) = some depth := by
  revert hplain depth
  refine compile_ok_induction (motive := fun e _ text =>
    (∀ column ∈ e.columns entity, IsPlain column) → ∀ depth, nesting depth (lex text) = some depth)
    ?_ ?_ ?_ e h
  · intro name role _ hr hplain depth
    rw [columns_member hr] at hplain
    rw [(lex_recordAccess (hplain _ (by simp))).2]
    rfl
  · intro value bound _ depth
    exact nesting_parameterName depth _
  · intro op symbol left right _ leftText rightText hs hl hr ihl ihr hplain depth
    rw [columns_binary] at hplain
    have hleft := fun c hc => hplain c (List.mem_append_left _ hc)
    have hright := fun c hc => hplain c (List.mem_append_right _ hc)
    have hclosed := (readsColumns_of_plain hl hleft).whole.closed
    have hclosed' := (readsColumns_of_plain hr hright).whole.closed
    obtain ⟨⟨hbefore, -⟩, hbetween, -⟩ := Symbol.words_marks hs
    obtain ⟨opened, hmarks⟩ := Symbol.nesting_marks hs
    obtain ⟨hopen, hkeep, hclose⟩ := hmarks depth
    rw [Symbol.join_eq, lex_append hbefore, lex_append hclosed, lex_append hbetween.closed,
      lex_append hclosed', nesting_append, hopen, Option.bind_some, nesting_append, ihl hleft,
      Option.bind_some, nesting_append, hkeep, Option.bind_some, nesting_append, ihr hright,
      Option.bind_some, hclose]

end Fragments

/-! ## Behind other parameters -/

theorem carries_shift (width bound bound' : Nat) :
    Carries (fun position => position - bound + bound') width bound bound' := by
  intro i _
  dsimp only
  omega

/-- Behind any two numbers of parameters an expression is refused for the same reason, or both times
binds all its constants. Then the fragment is not empty; and with plain columns it refers to the
parameters of its constants one by one in reading order, is the other fragment with the references
moved along, and has its parentheses balanced. -/
theorem Attempt.compile_uniform (entity : Entity) (e : Expr) (p q : Progress) :
    let first := compile entity e p
    let second := compile entity e q
    (∃ refusal, first.2 = .error refusal ∧ second.2 = .error refusal)
      ∨ ∃ text text', first.2 = .ok text ∧ second.2 = .ok text'
        ∧ first.1.parameters = p.parameters ++ e.constants
        ∧ second.1.parameters = q.parameters ++ e.constants
        ∧ text' ≠ ""
        ∧ ((∀ column ∈ e.columns entity, IsPlain column) →
          references text' = (List.range e.constants.length).map (fun i =>
              "p" ++ Text.Numeral.ofNat (q.parameters.length + 1 + i))
            ∧ text' = rename (fun position =>
              position - p.parameters.length + q.parameters.length) text
            ∧ nesting 0 (lex text') = some 0) := by
  intro first second
  have hfirst := Expr.compile_reports entity e p.parameters.length
  have hsecond := Expr.compile_reports entity e q.parameters.length
  have hparameters : ∀ {p : Progress} {text : String}, (compile entity e p).2 = .ok text →
      (compile entity e p).1.parameters = p.parameters ++ e.constants := by
    intro p text hok
    rw [progress_of_ok hok, Progress.bindAll_parameters]
  rcases hoffences : e.offences entity with _ | ⟨refusal, others⟩
  · obtain ⟨text, htext⟩ := hfirst.ok_iff.2 hoffences
    obtain ⟨text', htext'⟩ := hsecond.ok_iff.2 hoffences
    refine .inr ⟨text, text', htext, htext', hparameters htext, hparameters htext',
      Expr.ne_empty_of_ok htext', fun hplain => ⟨?_, ?_, Expr.nesting_of_ok htext' hplain 0⟩⟩
    · rw [references, Expr.mentions_references htext' hplain, block, List.range'_eq_map_range,
        List.map_map]
      rfl
    · have hmoved := Expr.compile_of_carries htext hplain
        (carries_shift e.constants.length p.parameters.length q.parameters.length)
      exact Except.ok.inj (htext'.symm.trans hmoved)
  · have hhead : (e.offences entity).head? = some refusal := by rw [hoffences]; rfl
    exact .inl ⟨refusal, (hfirst.error_iff refusal).2 hhead, (hsecond.error_iff refusal).2 hhead⟩

/-- References of two digits become references of one, beside a column that looks like one. -/
theorem Attempt.compile_uniform_sample :
    let entity : Entity := { name := "Sensor", members := [("Id", .tag "p10 (")] }
    let e : Expr := .binary .andAlso (.binary .equal (.member "Id") (.constant (.integer 1)))
      (.binary .lessThan (.constant (.integer 2)) (.member "Id"))
    let p : Progress := { parameters := List.replicate 9 (.integer 0) }
    (compile entity e p).2 = .ok "(r[\"p10 (\"] == p10) and (p11 < r[\"p10 (\"])"
      ∧ (compile entity e {}).2 = .ok "(r[\"p10 (\"] == p1) and (p2 < r[\"p10 (\"])" := by
  intro entity e p
  have hfirst : (compile entity e p).2
      = .ok "(r[\"p10 (\"] == p10) and (p11 < r[\"p10 (\"])" := by decide
  have hplain : ∀ column ∈ e.columns entity, IsPlain column := by decide
  have hmoved : rename (fun position => position - 9 + 0)
      "(r[\"p10 (\"] == p10) and (p11 < r[\"p10 (\"])"
        = "(r[\"p10 (\"] == p1) and (p2 < r[\"p10 (\"])" := by decide
  refine ⟨hfirst, ?_⟩
  obtain ⟨refusal, herror, -⟩ | ⟨text, text', htext, htext', -, -, -, hread⟩ :=
    compile_uniform entity e p {}
  · cases hfirst.symm.trans herror
  · obtain rfl := Except.ok.inj (hfirst.symm.trans htext)
    rw [htext', (hread hplain).2.1]
    exact congrArg Except.ok hmoved

end EntityFlux
