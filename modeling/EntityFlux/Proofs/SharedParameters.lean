import EntityFlux.Proofs.Arguments

/-!
# Sharing parameters

Expressions that are compiled one after another into the same parameters, whatever becomes of each.
A call appends the constants ahead of the first offence of its expression and changes nothing else
(`compile_progress`), so a run appends those of all its calls in turn (`compileAll_eq`). A refusal
takes nothing back, and no name is given out twice: the names in a fragment are those of the
parameters that its own call has bound, and lead to its own constants (`references_of_ok`).
-/

namespace EntityFlux

open Flux

/-- The constants that are met before the first offence: all of them, if there is none. -/
def Expr.constantsAhead (entity : Entity) (e : Expr) : List Literal :=
  (e.ahead entity).filterMap Expr.constant?

theorem Expr.constantsAhead_of_clean {entity : Entity} {e : Expr} (h : e.offences entity = []) :
    e.constantsAhead entity = e.constants := by
  rw [constantsAhead, ahead_eq_nodes_iff.2 h, constants]

theorem Progress.bindAll_nil (p : Progress) : p.bindAll [] = p := by
  simp only [bindAll, Event.registrations, List.append_nil]

theorem Progress.names_document (p : Progress) :
    p.document.body.map (·.name) = (List.range' 1 p.parameters.length).map parameterName := by
  rw [document, names_bindingsFrom]

theorem Progress.document_bindAll (p : Progress) (values : List Literal) :
    (p.bindAll values).document.body
      = p.document.body ++ bindingsFrom p.parameters.length values := by
  rw [document, bindAll_parameters, bindingsFrom_append, Nat.zero_add]
  rfl

namespace Attempt

/-- Compiles expressions one after another into the same parameters. A refusal ends nothing. -/
def compileAll (entity : Entity) (calls : List Expr) (p : Progress) : Progress :=
  calls.foldl (fun p e => (compile entity e p).1) p

/-- Whatever comes of a call, this is what it leaves behind. -/
theorem compile_progress (entity : Entity) (e : Expr) (p : Progress) :
    (compile entity e p).1 = p.bindAll (e.constantsAhead entity) := by
  rw [compile, Expr.compile_literals, Expr.constantsAhead]

theorem compileAll_eq (entity : Entity) (calls : List Expr) (p : Progress) :
    compileAll entity calls p = p.bindAll (calls.flatMap (Expr.constantsAhead entity)) := by
  unfold compileAll
  induction calls generalizing p with
  | nil => rw [List.foldl_nil, List.flatMap_nil, Progress.bindAll_nil]
  | cons e calls ih =>
    rw [List.foldl_cons, ih, compile_progress, Progress.bindAll_bindAll, List.flatMap_cons]

section Fragments

variable {entity : Entity} {e : Expr} {p : Progress} {text : String}

theorem progress_of_ok (h : (compile entity e p).2 = .ok text) :
    (compile entity e p).1 = p.bindAll e.constants :=
  congrArg p.bindAll (Expr.literals_of_ok h)

/-- The names in a fragment are those of the parameters that its call has bound. -/
theorem references_of_ok (h : (compile entity e p).2 = .ok text)
    (hplain : ∀ column ∈ e.columns entity, IsPlain column) :
    references text
      = ((compile entity e p).1.document.body.drop p.document.body.length).map (·.name) := by
  rw [progress_of_ok h, Progress.document_bindAll, List.drop_left, Progress.names_bindingsFrom]
  exact Expr.mentions_references h hplain

/-- Looked up one by one, the names in a fragment give its constants. -/
theorem find?_references (h : (compile entity e p).2 = .ok text)
    (hplain : ∀ column ∈ e.columns entity, IsPlain column) :
    (references text).map (compile entity e p).1.document.find?
      = e.constants.map fun value => some (Node.ofLiteral value) := by
  have hstands : StandsAt e.constants p.parameters.length (p.bindAll e.constants).parameters :=
    ⟨p.parameters, [], by simp, rfl⟩
  rw [progress_of_ok h, references, Expr.mentions_references h hplain, block,
    List.range'_eq_map_range, List.map_map, List.map_map]
  refine List.ext_getElem? fun i => ?_
  rw [List.getElem?_map, List.getElem?_map]
  rcases hi : e.constants[i]? with _ | value
  · have hlength : (List.range e.constants.length).length ≤ i := by
      rw [List.length_range]
      exact List.getElem?_eq_none_iff.1 hi
    rw [List.getElem?_eq_none hlength, Option.map_none, Option.map_none]
  · obtain ⟨hlt, -⟩ := List.getElem?_eq_some_iff.1 hi
    have hfind := hstands.find? hi
    rw [Nat.add_right_comm] at hfind
    rw [List.getElem?_range hlt, Option.map_some, Option.map_some]
    exact congrArg some hfind

end Fragments

/-- After every call of a run, however those before it went: the parameters are `p1`, `p2` and so
on, none missing and none twice; what was bound before is still bound as it was; what is new are
the constants of the expression ahead of its first offence, noted one by one under the next names.
A fragment with plain columns refers to these new names, one by one, and each leads to its constant.
The call is refused exactly if there is an offence, so then nothing is taken back. -/
theorem compile_extends_parameters (entity : Entity) (start : Progress) (history : List Expr)
    (e : Expr) :
    let before := compileAll entity history start
    let call := compile entity e before
    let after := call.1
    (after.document.body.map (·.name)
        = (List.range after.parameters.length).map fun i => "p" ++ Text.Numeral.ofNat (i + 1))
      ∧ (after.document.body.map (·.name)).Nodup
      ∧ before.parameters <+: after.parameters
      ∧ before.document.body <+: after.document.body
      ∧ after.parameters = before.parameters ++ e.constantsAhead entity
      ∧ after.parameters = start.parameters ++ (history ++ [e]).flatMap (Expr.constantsAhead entity)
      ∧ after.events
        = before.events ++ Event.registrations before.parameters.length (e.constantsAhead entity)
      ∧ (∀ text, call.2 = .ok text → (∀ column ∈ e.columns entity, IsPlain column) →
        references text = (after.document.body.drop before.document.body.length).map (·.name)
          ∧ (references text).map after.document.find?
            = e.constants.map fun value => some (Node.ofLiteral value))
      ∧ (∀ refusal, call.2 = .error refusal ↔ (e.offences entity).head? = some refusal)
      ∧ (e.offences entity = [] → e.constantsAhead entity = e.constants) := by
  intro before call after
  have hafter : after = before.bindAll (e.constantsAhead entity) := compile_progress entity e before
  have hbefore : before = start.bindAll (history.flatMap (Expr.constantsAhead entity)) :=
    compileAll_eq entity history start
  have hnames := after.names_document
  refine ⟨?_, ?_, ?_, ?_, ?_, ?_, ?_, ?_, ?_, Expr.constantsAhead_of_clean⟩
  · rw [hnames, List.range'_eq_map_range, List.map_map]
    refine List.map_congr_left fun i _ => ?_
    rw [Function.comp_apply, Nat.add_comm]
    rfl
  · rw [hnames]
    exact List.Nodup.map parameterName_injective (List.nodup_range' 1)
  · rw [hafter]
    exact List.prefix_append _ _
  · rw [hafter, Progress.document_bindAll]
    exact List.prefix_append _ _
  · rw [hafter, Progress.bindAll_parameters]
  · rw [hafter, hbefore, Progress.bindAll_bindAll, Progress.bindAll_parameters,
      List.flatMap_append, List.flatMap_singleton]
  · rw [hafter]
    rfl
  · intro text htext hplain
    exact ⟨references_of_ok htext hplain, find?_references htext hplain⟩
  · exact (Expr.compile_reports entity e before.parameters.length).error_iff

/-- A refused call leaves its first constant behind, and the next call goes on from there. -/
theorem compile_extends_parameters_sample :
    let entity : Entity := { name := "Sensor", members := [("Value", .field "p1")] }
    let refused : Expr := .binary .equal (.constant (.integer 1)) (.member "Id")
    let e : Expr := .binary .lessThan (.constant (.integer 1)) (.member "Value")
    let before := compileAll entity [refused] {}
    let call := compile entity e before
    before.document.body = [⟨"p1", .integer "1"⟩]
      ∧ call.2 = .ok "p2 < r[\"p1\"]"
      ∧ references "p2 < r[\"p1\"]" = ["p2"]
      ∧ call.1.document.find? "p2" = some (.integer "1") := by
  intro entity refused e before call
  have hcall : call.2 = .ok "p2 < r[\"p1\"]" := by decide
  have hplain : ∀ column ∈ e.columns entity, IsPlain column := by decide
  obtain ⟨-, -, -, -, -, -, -, hnames, -, -⟩ := compile_extends_parameters entity {} [refused] e
  obtain ⟨hreferences, hfind⟩ := hnames _ hcall hplain
  have hnew : references "p2 < r[\"p1\"]" = ["p2"] := hreferences.trans (by decide)
  rw [hnew] at hfind
  exact ⟨by decide, hcall, hnew, List.head_eq_of_cons_eq hfind⟩

end Attempt

end EntityFlux
