import FormRules.Proofs.Grammar.Phrase
import FormRules.Proofs.Parser.Settling

/-!
# Phrases are read

In front of the tokens of a phrase the reader goes on until the phrase is a complete operand, if
the constructs that are open already and those of the phrase together keep to the limit.
-/

namespace FormRules

namespace Expr

theorem height_pos (expr : Expr) : 0 < expr.height := by
  cases expr <;> simp [height, Nat.add_comm 1]

end Expr

namespace Parser

open Grammar

/-- An expression with its height. -/
def Operand.of (expr : Expr) : Operand :=
  ⟨expr, expr.height⟩

theorem binaryOp?_of_joins {level : Level} {token : TokenKind} {op : BinaryOp}
    (joins : Joins level token op) : binaryOp? token = some op := by
  cases joins <;> rfl

theorem exists_joins_of_binaryOp? {token : TokenKind} {op : BinaryOp}
    (operator : binaryOp? token = some op) : ∃ level, Joins level token op := by
  cases token <;> simp only [binaryOp?, Option.some.injEq, reduceCtorEq] at operator <;>
    exact operator ▸ ⟨_, by constructor⟩

/-- The open constructs leave a phrase of a stratum to the one that waits for it. -/
def Admits (level : Level) (frames : List Frame) : Prop :=
  level.rank < Level.unary.rank → Keeps level.rank frames

theorem Admits.next {level : Level} {frames : List Frame} (admits : Admits level frames) :
    Admits level.next frames := by
  intro tight
  have keeps := admits (Nat.lt_of_le_of_lt level.rank_le_next tight)
  exact keeps.mono level.rank_le_next

theorem Admits.keeps {level : Level} {frames : List Frame} (admits : Admits level frames)
    {token : TokenKind} {op : BinaryOp} (joins : Joins level token op) :
    Keeps op.precedence frames := by
  rw [← joins.rank_eq]
  exact admits joins.rank_lt_unary

theorem admits_operation {level : Level} {token : TokenKind} {op : BinaryOp}
    (joins : Joins level token op) (left : Operand) (position : Nat) (frames : List Frame) :
    Admits level.next (.operation left op position :: frames) := by
  intro _
  rw [Keeps, ← joins.rank_eq, Level.rank_next joins.loose]
  exact Nat.lt_succ_self _

theorem openFrame_of_lt {limit : Nat} {frames : List Frame} (lt : depth frames < limit)
    (frame : Frame) (position : Nat) :
    openFrame limit frame position frames = .ok ⟨frame :: frames, .operand⟩ :=
  if_pos lt

theorem openFrame_of_le {limit : Nat} {frames : List Frame} (le : limit ≤ depth frames)
    (frame : Frame) (position : Nat) :
    openFrame limit frame position frames =
      .error ((Fault.nestedTooDeep limit).error position) :=
  if_neg (Nat.not_lt_of_le le)

/-! ## Calls -/

theorem greatestHeight_append (left right : List Operand) :
    greatestHeight (left ++ right) = max (greatestHeight left) (greatestHeight right) := by
  induction left with
  | nil => simp [greatestHeight]
  | cons operand rest induction =>
      simp only [greatestHeight, List.cons_append, List.foldr_cons] at induction ⊢
      rw [induction, Nat.max_assoc]

/-- The height of a call is the one that its arguments have last one first. -/
theorem greatestHeight_reverse (exprs : List Expr) :
    greatestHeight (exprs.reverse.map .of) = Expr.maxHeight exprs := by
  induction exprs with
  | nil => rfl
  | cons expr rest induction =>
      rw [List.reverse_cons, List.map_append, greatestHeight_append, induction, Nat.max_comm]
      simp [greatestHeight, Operand.of, Expr.maxHeight]

theorem closeCall_of (limit : Nat) (function : String) (position : Nat) (exprs : List Expr)
    (frames : List Frame) :
    closeCall limit function position (exprs.reverse.map .of) frames =
      (build limit (.call function exprs) (Expr.call function exprs).height position).map
        fun node => ⟨frames, .complete node⟩ := by
  have arguments : (exprs.reverse.map Operand.of).reverse.map Operand.expr = exprs := by
    rw [← List.map_reverse, List.reverse_reverse, List.map_map]
    exact List.map_id _
  rw [closeCall, arguments, greatestHeight_reverse, Expr.height]
  rfl

variable {limit finalPosition : Nat}

/-- A name and a parenthesis open a call. -/
theorem run_call {name opening : Token} {function : String} {frames : List Frame}
    (name_kind : name.kind = .identifier function) (opening_kind : opening.kind = .leftParen)
    (admitted : depth frames < limit) (rest : List Token) :
    run limit finalPosition ⟨frames, .operand⟩ (name :: opening :: rest) =
      run limit finalPosition
        ⟨.call function name.position opening.position [] :: frames, .operand⟩ rest := by
  have named : step limit ⟨frames, .operand⟩ name =
      .ok ⟨frames, .name function name.position⟩ := by
    simp only [step, readOperand, name_kind]
  have opened : step limit ⟨frames, .name function name.position⟩ opening =
      .ok ⟨.call function name.position opening.position [] :: frames, .operand⟩ := by
    simp only [step, opening_kind, if_true]
    exact openFrame_of_lt admitted _ _
  rw [run_cons_of_step (by simp [name_kind]) named,
    run_cons_of_step (by simp [opening_kind]) opened]

/-! ## Phrases -/

mutual

/-- A phrase that the limit admits is read as a complete operand. -/
theorem run_phrase : ∀ {level : Level} (phrase : Phrase level) (frames : List Frame)
    (rest : List Token) {tokens : List Token},
    tokens.map Token.kind = phrase.tokens → Admits level frames →
    depth frames + phrase.nesting ≤ limit → phrase.expr.height ≤ max limit 1 →
    nextBound rest ≤ level.rank → (∀ token ∈ rest.head?, token.kind ≠ .leftParen) →
    run limit finalPosition ⟨frames, .operand⟩ (tokens ++ rest) =
      run limit finalPosition ⟨frames, .complete (.of phrase.expr)⟩ rest
  | level, .join operator op joins left right, frames, rest, tokens, kinds, admits, nested, high,
      bound, not_call => by
      obtain ⟨leftTokens, behind, rfl, left_kinds, behind_kinds⟩ := List.map_eq_append_iff.1 kinds
      obtain ⟨token, rightTokens, rfl, rfl, right_kinds⟩ := List.map_eq_cons_iff.1 behind_kinds
      have left_pos := left.expr.height_pos
      simp only [Phrase.nesting, Phrase.expr, Expr.height] at nested high
      have operator := binaryOp?_of_joins joins
      have left_read := run_phrase left frames (token :: (rightTokens ++ rest)) left_kinds admits
        (by omega) (by omega)
        (Nat.le_of_eq ((nextBound_cons_of_some operator _).trans joins.rank_eq.symm))
        (no_call_cons joins.ne_leftParen _)
      have operated : step limit ⟨frames, .complete (.of left.expr)⟩ token =
          .ok ⟨.operation (.of left.expr) op token.position :: frames, .operand⟩ := by
        simp only [step, readAfter, operator, settle_of_keeps (admits.keeps joins)]
        rfl
      have right_read := run_phrase right (.operation (.of left.expr) op token.position :: frames)
        rest right_kinds (admits_operation joins _ _ _) (by rw [depth_operation]; omega)
        (by omega) (Nat.le_trans bound level.rank_le_next) not_call
      rw [List.append_assoc, List.cons_append, left_read,
        run_cons_of_step joins.ne_endOfText operated, right_read]
      apply run_complete_congr
      rw [settle_operation (by rw [← joins.rank_eq]; exact bound),
        build_of_le (by simp only [Operand.of]; omega)]
      rfl
  | _, .lift _ inner, frames, rest, tokens, kinds, admits, nested, high, bound, not_call =>
      run_phrase inner frames rest kinds admits.next nested high
        (Nat.le_trans bound (Level.rank_le_next _)) not_call
  | _, .negation operand, frames, rest, tokens, kinds, admits, nested, high, bound, not_call => by
      obtain ⟨token, operandTokens, rfl, minus, operand_kinds⟩ := List.map_eq_cons_iff.1 kinds
      have operand_pos := operand.expr.height_pos
      simp only [Phrase.nesting, Phrase.expr, Expr.height] at nested high
      have opened : step limit ⟨frames, .operand⟩ token =
          .ok ⟨.negation token.position :: frames, .operand⟩ := by
        simp only [step, readOperand, minus]
        exact openFrame_of_lt (by omega) _ _
      have operand_read := run_phrase operand (.negation token.position :: frames) rest
        operand_kinds (fun tight => absurd tight (Nat.lt_irrefl _))
        (by rw [depth_negation]; omega) (by omega) bound not_call
      rw [List.cons_append, run_cons_of_step (by simp [minus]) opened, operand_read]
      apply run_complete_congr
      rw [settle_negation, build_of_le (by simp only [Operand.of]; omega)]
      rfl
  | _, .number value, frames, rest, tokens, kinds, _, _, _, _, _ => by
      obtain ⟨token, _, rfl, kind, none⟩ := List.map_eq_cons_iff.1 kinds
      obtain rfl := List.map_eq_nil_iff.1 none
      exact run_cons_of_step (by simp [kind]) (by simp only [step, readOperand, kind]; rfl) rest
  | _, .text content, frames, rest, tokens, kinds, _, _, _, _, _ => by
      obtain ⟨token, _, rfl, kind, none⟩ := List.map_eq_cons_iff.1 kinds
      obtain rfl := List.map_eq_nil_iff.1 none
      exact run_cons_of_step (by simp [kind]) (by simp only [step, readOperand, kind]; rfl) rest
  | _, .field name, frames, rest, tokens, kinds, _, _, _, _, not_call => by
      obtain ⟨token, _, rfl, kind, none⟩ := List.map_eq_cons_iff.1 kinds
      obtain rfl := List.map_eq_nil_iff.1 none
      have named : step limit ⟨frames, .operand⟩ token =
          .ok ⟨frames, .name name token.position⟩ := by
        simp only [step, readOperand, kind]
      rw [List.cons_append, List.nil_append, run_cons_of_step (by simp [kind]) named,
        run_name _ _ not_call]
      rfl
  | _, .emptyCall function, frames, rest, tokens, kinds, _, nested, _, _, _ => by
      obtain ⟨name, _, rfl, name_kind, behind⟩ := List.map_eq_cons_iff.1 kinds
      obtain ⟨opening, _, rfl, opening_kind, behind⟩ := List.map_eq_cons_iff.1 behind
      obtain ⟨closing, _, rfl, closing_kind, none⟩ := List.map_eq_cons_iff.1 behind
      obtain rfl := List.map_eq_nil_iff.1 none
      simp only [Phrase.nesting] at nested
      have closed : step limit ⟨.call function name.position opening.position [] :: frames,
          .operand⟩ closing = .ok ⟨frames, .complete (.of (.call function []))⟩ := by
        have called := closeCall_of limit function name.position [] frames
        rw [build_of_le (by simp only [Expr.height, Expr.maxHeight]; omega)] at called
        simp only [step, readOperand, closing_kind]
        exact called
      rw [List.cons_append, List.cons_append,
        run_call name_kind opening_kind (by omega), List.cons_append,
        run_cons_of_step (by simp [closing_kind]) closed]
      rfl
  | _, .call function arguments, frames, rest, tokens, kinds, _, nested, high, _, _ => by
      obtain ⟨name, _, rfl, name_kind, behind⟩ := List.map_eq_cons_iff.1 kinds
      obtain ⟨opening, _, rfl, opening_kind, behind⟩ := List.map_eq_cons_iff.1 behind
      obtain ⟨argumentTokens, _, rfl, argument_kinds, behind⟩ := List.map_eq_append_iff.1 behind
      obtain ⟨closing, _, rfl, closing_kind, none⟩ := List.map_eq_cons_iff.1 behind
      obtain rfl := List.map_eq_nil_iff.1 none
      simp only [Phrase.nesting, Phrase.expr, Expr.height] at nested high
      have arguments_read := run_arguments arguments frames [] rest function name.position
        opening.position argument_kinds closing_kind nested (by omega)
      have called := closeCall_of limit function name.position arguments.exprs frames
      rw [build_of_le (by simp only [Expr.height]; omega)] at called
      rw [List.cons_append, List.cons_append, run_call name_kind opening_kind (by omega),
        List.append_assoc]
      refine arguments_read.trans ?_
      rw [List.nil_append, called]
      rfl
  | _, .group inner, frames, rest, tokens, kinds, _, nested, high, _, _ => by
      obtain ⟨opening, _, rfl, opening_kind, behind⟩ := List.map_eq_cons_iff.1 kinds
      obtain ⟨innerTokens, _, rfl, inner_kinds, behind⟩ := List.map_eq_append_iff.1 behind
      obtain ⟨closing, _, rfl, closing_kind, none⟩ := List.map_eq_cons_iff.1 behind
      obtain rfl := List.map_eq_nil_iff.1 none
      simp only [Phrase.nesting, Phrase.expr] at nested high
      have opened : step limit ⟨frames, .operand⟩ opening =
          .ok ⟨.group opening.position :: frames, .operand⟩ := by
        simp only [step, readOperand, opening_kind]
        exact openFrame_of_lt (by omega) _ _
      have inner_read := run_phrase inner (.group opening.position :: frames) (closing :: rest)
        inner_kinds (fun _ => trivial) (by rw [depth_group]; omega) high
        (nextBound_cons_le_of_none (by rw [closing_kind]; rfl) _)
        (no_call_cons (by simp [closing_kind]) _)
      rw [List.cons_append, run_cons_of_step (by simp [opening_kind]) opened, List.append_assoc,
        List.cons_append, List.nil_append, inner_read]
      refine run_cons_of_step (by simp [closing_kind]) ?_ rest
      rw [step_of_keeps (by exact trivial) (by rw [closing_kind]; rfl)]
      simp only [readDelimiter, closing_kind]
      rfl

/-- The arguments of a call are read up to the parenthesis that closes it. -/
theorem run_arguments : ∀ (arguments : Arguments) (frames : List Frame) (before : List Expr)
    (rest : List Token) (function : String) (position opening : Nat) {tokens : List Token}
    {closing : Token}, tokens.map Token.kind = arguments.tokens → closing.kind = .rightParen →
    depth frames + (1 + arguments.nesting) ≤ limit →
    Expr.maxHeight arguments.exprs ≤ max limit 1 →
    run limit finalPosition
        ⟨.call function position opening (before.reverse.map .of) :: frames, .operand⟩
        (tokens ++ closing :: rest) =
      (closeCall limit function position ((before ++ arguments.exprs).reverse.map .of) frames >>=
        fun next => run limit finalPosition next rest)
  | .last argument, frames, before, rest, function, position, opening, tokens, closing, kinds,
      closing_kind, nested, high => by
      simp only [Arguments.nesting, Arguments.exprs, Expr.maxHeight] at nested high
      have argument_read := run_phrase argument
        (.call function position opening (before.reverse.map .of) :: frames) (closing :: rest)
        kinds (fun _ => trivial) (by rw [depth_call]; omega) (by omega)
        (nextBound_cons_le_of_none (by rw [closing_kind]; rfl) _)
        (no_call_cons (by simp [closing_kind]) _)
      have done : (before ++ [argument.expr]).reverse.map Operand.of =
          .of argument.expr :: before.reverse.map .of := by
        rw [List.reverse_append]
        rfl
      rw [argument_read, run_cons (by simp [closing_kind]), Arguments.exprs, done]
      congr 1
      rw [step_of_keeps (by exact trivial) (by rw [closing_kind]; rfl)]
      simp only [readDelimiter, closing_kind]
  | .more argument more, frames, before, rest, function, position, opening, tokens, closing, kinds,
      closing_kind, nested, high => by
      obtain ⟨argumentTokens, _, rfl, argument_kinds, behind⟩ := List.map_eq_append_iff.1 kinds
      obtain ⟨comma, moreTokens, rfl, comma_kind, more_kinds⟩ := List.map_eq_cons_iff.1 behind
      simp only [Arguments.nesting, Arguments.exprs, Expr.maxHeight] at nested high
      have argument_read := run_phrase argument
        (.call function position opening (before.reverse.map .of) :: frames)
        (comma :: (moreTokens ++ closing :: rest)) argument_kinds (fun _ => trivial)
        (by rw [depth_call]; omega) (by omega)
        (nextBound_cons_le_of_none (by rw [comma_kind]; rfl) _)
        (no_call_cons (by simp [comma_kind]) _)
      have separated : step limit ⟨.call function position opening (before.reverse.map .of) ::
          frames, .complete (.of argument.expr)⟩ comma = .ok ⟨.call function position opening
            ((before ++ [argument.expr]).reverse.map .of) :: frames, .operand⟩ := by
        rw [List.reverse_append, step_of_keeps (by exact trivial) (by rw [comma_kind]; rfl)]
        simp only [readDelimiter, comma_kind]
        rfl
      have more_read := run_arguments more frames (before ++ [argument.expr]) rest function
        position opening more_kinds closing_kind (by omega) (by omega)
      rw [List.append_assoc, List.cons_append, argument_read,
        run_cons_of_step (by simp [comma_kind]) separated, more_read, List.append_assoc]
      rfl

end

end Parser
end FormRules
