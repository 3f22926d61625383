import EntityFlux.Model.Expr
import Mathlib.Data.List.Basic

/-!
# Reading by precedence

The grammar of operands, parentheses and binary operators (`Phrase`), and a reader that goes through
the tokens once and keeps the operators whose right operand is not finished yet. Both leave the
strengths of the operators open. The reader accepts exactly the grammar (`readTokens_eq_some_iff`),
so no list of tokens stands for two trees (`Phrase.unique`).
-/

namespace EntityFlux.Flux

/-- What a predicate is about: a column of the record or a parameter. -/
inductive Operand where
  | column (name : String)
  | parameter (name : String)
deriving DecidableEq, Repr

inductive Token where
  | operand (operand : Operand)
  | operator (op : BinaryOp)
  | opening
  | closing
deriving DecidableEq, Repr

/-- An expression as it is grouped; parentheses leave no trace. -/
inductive Tree where
  | operand (operand : Operand)
  | joined (op : BinaryOp) (left right : Tree)
deriving DecidableEq, Repr

/-- The tokens of an expression that has no operator weaker than `level` outside of its parentheses,
and the tree they stand for. Operators of the same strength are grouped from the left, since only
the left operand may have one of that strength again. -/
inductive Phrase (strength : BinaryOp → Nat) : Nat → List Token → Tree → Prop
  | operand (level : Nat) (operand : Operand) :
    Phrase strength level [.operand operand] (.operand operand)
  | enclosed (level : Nat) {tokens : List Token} {tree : Tree} (h : Phrase strength 0 tokens tree) :
    Phrase strength level (.opening :: (tokens ++ [.closing])) tree
  | joined {level : Nat} {op : BinaryOp} {left right : List Token} {l r : Tree}
      (hlevel : level ≤ strength op) (hleft : Phrase strength (strength op) left l)
      (hright : Phrase strength (strength op + 1) right r) :
    Phrase strength level (left ++ .operator op :: right) (.joined op l r)

/-- Left operands, each with its operator, the last that was read in front. -/
abbrev Pending := List (Tree × BinaryOp)

/-- Where a reader stands inside an expression. -/
structure Reader where
  /-- The operators that wait for their right operand. -/
  pending : Pending := []
  /-- The operand that was read last, unless an operand is what comes next. -/
  value : Option Tree := none
  /-- What waits in front of each parenthesis that is still open. -/
  outer : List Pending := []

section Reading

variable (strength : BinaryOp → Nat)

/-- Gives an operand to the operators that wait, as far as they are not weaker than `level`. -/
def reduce (level : Nat) : Tree → Pending → Tree × Pending
  | tree, [] => (tree, [])
  | tree, (left, op) :: pending =>
    if level ≤ strength op then reduce level (.joined op left tree) pending
    else (tree, (left, op) :: pending)

def Reader.step : Reader → Token → Option Reader
  | ⟨pending, none, outer⟩, .operand x => some ⟨pending, some (.operand x), outer⟩
  | ⟨pending, none, outer⟩, .opening => some ⟨[], none, pending :: outer⟩
  | ⟨pending, some tree, outer⟩, .operator op =>
    let (left, weaker) := reduce strength (strength op) tree pending
    some ⟨(left, op) :: weaker, none, outer⟩
  | ⟨pending, some tree, around :: outer⟩, .closing =>
    some ⟨around, some (reduce strength 0 tree pending).1, outer⟩
  | _, _ => none

def Reader.finish : Reader → Option Tree
  | ⟨pending, some tree, []⟩ => some (reduce strength 0 tree pending).1
  | _ => none

def readTokens (tokens : List Token) : Option Tree :=
  (tokens.foldlM (Reader.step strength) {}).bind (Reader.finish strength)

end Reading

section Accepting

variable {strength : BinaryOp → Nat} {level : Nat} {tokens : List Token} {tree : Tree}

/-- Every operator that waits is weaker than `level`. -/
def Weaker (strength : BinaryOp → Nat) (level : Nat) (pending : Pending) : Prop :=
  ∀ entry ∈ pending, strength entry.2 < level

theorem Weaker.nil : Weaker strength level [] :=
  List.forall_mem_nil _

theorem Weaker.mono {stronger : Nat} {pending : Pending} (h : Weaker strength level pending)
    (hle : level ≤ stronger) : Weaker strength stronger pending :=
  fun entry hentry => Nat.lt_of_lt_of_le (h entry hentry) hle

theorem Weaker.cons {pending : Pending} {op : BinaryOp}
    (h : Weaker strength (strength op) pending) (left : Tree) (hlt : strength op < level) :
    Weaker strength level ((left, op) :: pending) :=
  List.forall_mem_cons.2 ⟨hlt, h.mono (Nat.le_of_lt hlt)⟩

theorem Weaker.eq_nil {pending : Pending} (h : Weaker strength 0 pending) : pending = [] :=
  List.eq_nil_iff_forall_not_mem.2 fun entry hentry => Nat.not_lt_zero _ (h entry hentry)

theorem reduce_of_weaker {pending : Pending} (h : Weaker strength level pending) (tree : Tree) :
    reduce strength level tree pending = (tree, pending) := by
  cases pending with
  | nil => rfl
  | cons entry pending =>
    have hlt := h entry List.mem_cons_self
    rw [reduce, if_neg (by omega)]

/-- Down to a weaker level it is the same to stop on the way. -/
theorem reduce_reduce {weak : Nat} (h : weak ≤ level) (tree : Tree) (pending : Pending) :
    reduce strength weak (reduce strength level tree pending).1
        (reduce strength level tree pending).2
      = reduce strength weak tree pending := by
  induction pending generalizing tree with
  | nil => rfl
  | cons entry pending ih =>
    obtain ⟨left, op⟩ := entry
    by_cases hop : level ≤ strength op
    · rw [reduce, if_pos hop, ih, reduce, if_pos (Nat.le_trans h hop)]
    · rw [reduce, if_neg hop]

/-- Reading a phrase leaves the operators that waited before it, and beside them only what a
reduction to its level turns into its tree. -/
theorem Phrase.foldlM_step (h : Phrase strength level tokens tree) {pending : Pending}
    (hpending : Weaker strength level pending) (outer : List Pending) :
    ∃ waiting value, tokens.foldlM (Reader.step strength) ⟨pending, none, outer⟩
        = some ⟨waiting, some value, outer⟩
      ∧ reduce strength level value waiting = (tree, pending) := by
  induction h generalizing pending outer with
  | operand level operand =>
    exact ⟨pending, .operand operand, rfl, reduce_of_weaker hpending _⟩
  | @enclosed level tokens tree _ ih =>
    obtain ⟨waiting, value, hrun, hreduce⟩ := ih .nil (pending :: outer)
    refine ⟨pending, tree, ?_, reduce_of_weaker hpending _⟩
    rw [List.foldlM_cons, Reader.step, Option.bind_eq_bind, Option.bind_some, List.foldlM_append,
      hrun]
    simp [Reader.step, hreduce]
  | @joined level op left right l r hlevel _ _ ihl ihr =>
    obtain ⟨waiting, value, hrun, hreduce⟩ := ihl (hpending.mono hlevel) outer
    obtain ⟨waiting', value', hrun', hreduce'⟩ :=
      ihr ((hpending.mono hlevel).cons l (Nat.lt_succ_self _)) outer
    refine ⟨waiting', value', ?_, ?_⟩
    · rw [List.foldlM_append, hrun, Option.bind_eq_bind, Option.bind_some, List.foldlM_cons]
      simp [Reader.step, hreduce, hrun']
    · rw [← reduce_reduce (Nat.le_succ_of_le hlevel), hreduce', reduce, if_pos hlevel,
        reduce_of_weaker hpending]

theorem Phrase.readTokens (h : Phrase strength 0 tokens tree) :
    readTokens strength tokens = some tree := by
  obtain ⟨waiting, value, hrun, hreduce⟩ := h.foldlM_step .nil []
  rw [Flux.readTokens, hrun, Option.bind_some, Reader.finish, hreduce]

/-- No list of tokens stands for two trees. -/
theorem Phrase.unique {other : Tree} (h : Phrase strength 0 tokens tree)
    (h' : Phrase strength 0 tokens other) : tree = other :=
  Option.some.inj (h.readTokens.symm.trans h'.readTokens)

theorem Phrase.mono {stronger : Nat} (h : Phrase strength stronger tokens tree)
    (hle : level ≤ stronger) : Phrase strength level tokens tree := by
  cases h with
  | operand _ operand => exact .operand level operand
  | enclosed _ h => exact .enclosed level h
  | joined hlevel hleft hright => exact .joined (Nat.le_trans hle hlevel) hleft hright

variable (strength) in
/-- The tokens of the operators that wait, each with its left operand; towards the front the
operators get weaker. -/
inductive Held : Pending → List Token → Prop
  | nil : Held [] []
  | cons {pending : Pending} {op : BinaryOp} {front left : List Token} {l : Tree}
      (h : Held pending front) (hweaker : Weaker strength (strength op) pending)
      (hleft : Phrase strength (strength op) left l) :
    Held ((l, op) :: pending) (front ++ (left ++ [.operator op]))

variable (strength) in
/-- The tokens up to the last parenthesis that is open. -/
inductive Around : List Pending → List Token → Prop
  | nil : Around [] []
  | cons {outer : List Pending} {pending : Pending} {front tokens : List Token}
      (h : Around outer front) (hpending : Held strength pending tokens) :
    Around (pending :: outer) (front ++ (tokens ++ [.opening]))

/-- What a reduction leaves waiting stands ahead of what it has joined. -/
theorem Held.reduce {pending : Pending} {front last : List Token} {value : Tree} {stronger : Nat}
    (h : Held strength pending front) (hlast : Phrase strength stronger last value)
    (hpending : Weaker strength stronger pending) (hle : level ≤ stronger) :
    ∃ front' last', front ++ last = front' ++ last'
      ∧ Held strength (reduce strength level value pending).2 front'
      ∧ Weaker strength level (Flux.reduce strength level value pending).2
      ∧ Phrase strength level last' (Flux.reduce strength level value pending).1 := by
  induction h generalizing last value stronger with
  | nil => exact ⟨[], last, rfl, .nil, .nil, hlast.mono hle⟩
  | @cons pending op front left l h hweaker hleft ih =>
    have hop : strength op < stronger := hpending (l, op) List.mem_cons_self
    by_cases hlevel : level ≤ strength op
    · rw [Flux.reduce, if_pos hlevel]
      obtain ⟨front', last', heq, hheld, hleft', hphrase⟩ :=
        ih (.joined (Nat.le_refl _) hleft (hlast.mono hop)) hweaker hlevel
      exact ⟨front', last', by simp [← heq], hheld, hleft', hphrase⟩
    · rw [Flux.reduce, if_neg hlevel]
      exact ⟨front ++ (left ++ [.operator op]), last, rfl, .cons h hweaker hleft,
        hweaker.cons l (by omega), hlast.mono hle⟩

/-- What has been read when a reader has come to where it stands. -/
structure Reached (strength : BinaryOp → Nat) (reader : Reader) (tokens : List Token) : Prop where
  split : ∃ around front last, tokens = around ++ (front ++ last)
    ∧ Around strength reader.outer around ∧ Held strength reader.pending front
    ∧ match reader.value with
      | none => last = []
      | some tree => ∀ level, Phrase strength level last tree

/-- An operand that was just read is joined to all that waits, down to any level. -/
theorem Held.reduce_value {pending : Pending} {front last : List Token} {value : Tree}
    (h : Held strength pending front) (hlast : ∀ level, Phrase strength level last value)
    (level : Nat) :
    ∃ front' last', front ++ last = front' ++ last'
      ∧ Held strength (Flux.reduce strength level value pending).2 front'
      ∧ Weaker strength level (Flux.reduce strength level value pending).2
      ∧ Phrase strength level last' (Flux.reduce strength level value pending).1 := by
  obtain ⟨stronger, hle, hweaker⟩ : ∃ stronger, level ≤ stronger
      ∧ Weaker strength stronger pending := by
    cases h with
    | nil => exact ⟨level, Nat.le_refl _, .nil⟩
    | @cons pending op front left l h hweaker hleft =>
      exact ⟨max level (strength op + 1), Nat.le_max_left _ _,
        hweaker.cons l (Nat.lt_of_succ_le (Nat.le_max_right _ _))⟩
  exact h.reduce (hlast stronger) hweaker hle

theorem Reached.step {reader next : Reader} {token : Token} (h : Reached strength reader tokens)
    (hstep : reader.step strength token = some next) :
    Reached strength next (tokens ++ [token]) := by
  obtain ⟨pending, value, outer⟩ := reader
  obtain ⟨around, front, last, rfl, haround, hheld, hlast⟩ := h.split
  cases value with
  | none =>
    obtain rfl : last = [] := hlast
    cases token with
    | operand x =>
      obtain rfl := Option.some.inj hstep
      exact ⟨around, front, [.operand x], by simp, haround, hheld, fun level => .operand level x⟩
    | opening =>
      obtain rfl := Option.some.inj hstep
      exact ⟨around ++ (front ++ [.opening]), [], [], by simp, .cons haround hheld, .nil, rfl⟩
    | operator op => cases hstep
    | closing => cases hstep
  | some tree =>
    cases token with
    | operand x => cases hstep
    | opening => cases hstep
    | operator op =>
      obtain rfl := Option.some.inj hstep
      obtain ⟨front', last', hsplit, hheld', hweaker, hphrase⟩ :=
        hheld.reduce_value hlast (strength op)
      refine ⟨around, front' ++ (last' ++ [.operator op]), [], ?_, haround,
        .cons hheld' hweaker hphrase, rfl⟩
      rw [hsplit]
      simp
    | closing =>
      obtain ⟨front', last', hsplit, hheld', hweaker, hphrase⟩ := hheld.reduce_value hlast 0
      rw [hweaker.eq_nil] at hheld'
      cases hheld'
      cases haround with
      | nil => cases hstep
      | @cons outer pending' before waiting hbefore hwaiting =>
        obtain rfl := Option.some.inj hstep
        refine ⟨before, waiting, .opening :: (last' ++ [.closing]), ?_, hbefore, hwaiting,
          fun level => .enclosed level hphrase⟩
        rw [hsplit]
        simp

theorem Reached.foldlM {reader last : Reader} (h : Reached strength reader tokens)
    (more : List Token) (hrun : more.foldlM (Reader.step strength) reader = some last) :
    Reached strength last (tokens ++ more) := by
  induction more generalizing reader tokens with
  | nil =>
    obtain rfl : reader = last := by simpa using hrun
    simpa using h
  | cons token more ih =>
    rw [List.foldlM_cons, Option.bind_eq_bind, Option.bind_eq_some_iff] at hrun
    obtain ⟨next, hstep, hrun⟩ := hrun
    simpa using ih (h.step hstep) hrun

/-- The reader accepts exactly the phrases, and gives the tree they stand for. -/
theorem readTokens_eq_some_iff :
    readTokens strength tokens = some tree ↔ Phrase strength 0 tokens tree := by
  refine ⟨fun h => ?_, Phrase.readTokens⟩
  obtain ⟨⟨pending, value, outer⟩, hrun, hfinish⟩ := Option.bind_eq_some_iff.1 h
  have hstart : Reached strength {} [] := ⟨[], [], [], rfl, .nil, .nil, rfl⟩
  obtain ⟨around, front, last, heq, haround, hheld, hlast⟩ := (hstart.foldlM tokens hrun).split
  cases value with
  | none => cases hfinish
  | some value =>
    cases haround with
    | cons _ _ => cases hfinish
    | nil =>
      obtain rfl := Option.some.inj hfinish
      obtain ⟨front', last', hsplit, hheld', hweaker, hphrase⟩ := hheld.reduce_value hlast 0
      rw [hweaker.eq_nil] at hheld'
      cases hheld'
      rw [List.nil_append] at heq hsplit
      rwa [heq, hsplit]

end Accepting

end EntityFlux.Flux
