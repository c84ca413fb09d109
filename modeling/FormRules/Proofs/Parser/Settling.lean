import FormRules.Expr.Parser

/-!
# What the reader does between two operands

The next token decides how far the constructs that wait for an operand take it. That is all it
decides, so two complete operands that settle alike in front of it are read on alike.
-/

namespace FormRules.Parser

/-! ## Open constructs -/

@[simp]
theorem depth_nil : depth [] = 0 :=
  rfl

@[simp]
theorem depth_negation (position : Nat) (frames : List Frame) :
    depth (.negation position :: frames) = depth frames + 1 :=
  List.countP_cons_of_pos rfl

@[simp]
theorem depth_operation (left : Operand) (op : BinaryOp) (position : Nat) (frames : List Frame) :
    depth (.operation left op position :: frames) = depth frames :=
  List.countP_cons_of_neg (by simp [Frame.isOpen])

@[simp]
theorem depth_group (opening : Nat) (frames : List Frame) :
    depth (.group opening :: frames) = depth frames + 1 :=
  List.countP_cons_of_pos rfl

@[simp]
theorem depth_call (function : String) (position opening : Nat) (arguments : List Operand)
    (frames : List Frame) :
    depth (.call function position opening arguments :: frames) = depth frames + 1 :=
  List.countP_cons_of_pos rfl

/-! ## Settling an operand -/

/-- The innermost construct does not take an operand in front of an operator that binds as tightly
as the bound. -/
def Keeps (bound : Nat) : List Frame → Prop
  | .negation _ :: _ => False
  | .operation _ op _ :: _ => op.precedence < bound
  | _ => True

theorem Keeps.mono {bound tighter : Nat} {frames : List Frame} (keeps : Keeps bound frames)
    (le : bound ≤ tighter) : Keeps tighter frames := by
  match frames, keeps with
  | [], _ => trivial
  | .operation _ op _ :: _, keeps => exact Nat.lt_of_lt_of_le keeps le
  | .group _ :: _, _ | .call .. :: _, _ => trivial

variable {limit bound : Nat}

theorem settle_of_keeps {frames : List Frame} (keeps : Keeps bound frames) (operand : Operand) :
    settle limit bound frames operand = .ok (frames, operand) := by
  match frames, keeps with
  | [], _ => rfl
  | .operation _ op _ :: _, keeps =>
      rw [settle, if_neg (Nat.not_le_of_lt keeps)]
  | .group _ :: _, _ | .call .. :: _, _ => rfl

theorem settle_negation (position : Nat) (frames : List Frame) (operand : Operand) :
    settle limit bound (.negation position :: frames) operand =
      (build limit (.negate operand.expr) (1 + operand.height) position >>=
        settle limit bound frames) :=
  rfl

theorem settle_operation {left : Operand} {op : BinaryOp} (le : bound ≤ op.precedence)
    (position : Nat) (frames : List Frame) (operand : Operand) :
    settle limit bound (.operation left op position :: frames) operand =
      (build limit (.binary op left.expr operand.expr) (1 + max left.height operand.height)
        position >>= settle limit bound frames) := by
  rw [settle, if_pos le]

theorem build_of_le {height : Nat} (le : height ≤ limit) (expr : Expr) (position : Nat) :
    build limit expr height position = .ok ⟨expr, height⟩ :=
  if_pos le

theorem build_of_lt {height : Nat} (lt : limit < height) (expr : Expr) (position : Nat) :
    build limit expr height position =
      .error ((Fault.treeTooHigh limit).error position) :=
  if_neg (Nat.not_le_of_lt lt)

/-- Behind an operand that nothing takes, a token that is no operator has to delimit it. -/
theorem step_of_keeps {frames : List Frame} (keeps : Keeps 0 frames) {operand : Operand}
    {token : Token} (delimiter : binaryOp? token.kind = none) :
    step limit ⟨frames, .complete operand⟩ token = readDelimiter limit frames operand token := by
  simp only [step, readAfter, delimiter, settle_of_keeps keeps]
  rfl

/-! ## The next token -/

/-- How tightly the next token binds: as its operator, or not at all. -/
def nextBound : List Token → Nat
  | [] => 0
  | token :: _ => ((binaryOp? token.kind).map BinaryOp.precedence).getD 0

theorem nextBound_cons_of_some {token : Token} {op : BinaryOp}
    (operator : binaryOp? token.kind = some op) (rest : List Token) :
    nextBound (token :: rest) = op.precedence := by
  rw [nextBound, operator]
  rfl

theorem nextBound_cons_of_none {token : Token} (operator : binaryOp? token.kind = none)
    (rest : List Token) : nextBound (token :: rest) = 0 := by
  rw [nextBound, operator]
  rfl

theorem nextBound_cons_le_of_none {token : Token} (operator : binaryOp? token.kind = none)
    (rest : List Token) : nextBound (token :: rest) ≤ bound := by
  rw [nextBound_cons_of_none operator]
  exact Nat.zero_le _

theorem no_call_cons {token : Token} (other : token.kind ≠ .leftParen) (rest : List Token) :
    ∀ head ∈ (token :: rest).head?, head.kind ≠ .leftParen := by
  intro head head_eq
  obtain rfl := Option.some.inj head_eq
  exact other

variable {finalPosition : Nat}

theorem run_cons {state : State} {token : Token} (more : token.kind ≠ .endOfText)
    (rest : List Token) :
    run limit finalPosition state (token :: rest) =
      (step limit state token >>= fun next => run limit finalPosition next rest) := by
  rw [run, if_neg more]

theorem run_cons_of_step {state next : State} {token : Token} (more : token.kind ≠ .endOfText)
    (stepped : step limit state token = .ok next) (rest : List Token) :
    run limit finalPosition state (token :: rest) = run limit finalPosition next rest := by
  rw [run_cons more, stepped]
  rfl

theorem run_cons_of_fault {state : State} {token : Token} {error : ParseError}
    (more : token.kind ≠ .endOfText) (stepped : step limit state token = .error error)
    (rest : List Token) :
    run limit finalPosition state (token :: rest) = .error error := by
  rw [run_cons more, stepped]
  rfl

/-- Behind a complete operand, reading goes on with what it settles to in front of the next
token. -/
theorem exists_resume (limit finalPosition : Nat) (rest : List Token) :
    ∃ resume, ∀ frames operand, run limit finalPosition ⟨frames, .complete operand⟩ rest =
      (settle limit (nextBound rest) frames operand >>= resume) := by
  cases rest with
  | nil => exact ⟨_, fun _ _ => rfl⟩
  | cons token rest =>
      by_cases last : token.kind = .endOfText
      · have unbound := nextBound_cons_of_none (by rw [last]; rfl) rest
        simp only [run, if_pos last, unbound]
        exact ⟨_, fun _ _ => rfl⟩
      · simp only [run_cons last]
        cases operator : binaryOp? token.kind with
        | some op =>
            simp only [nextBound_cons_of_some operator, step, readAfter, operator, bind_assoc]
            exact ⟨_, fun _ _ => rfl⟩
        | none =>
            simp only [nextBound_cons_of_none operator, step, readAfter, operator, bind_assoc]
            exact ⟨_, fun _ _ => rfl⟩

/-- Two operands that settle alike in front of the next token are read on alike. -/
theorem run_complete_congr {frames others : List Frame} {operand other : Operand}
    {rest : List Token}
    (same : settle limit (nextBound rest) frames operand =
      settle limit (nextBound rest) others other) :
    run limit finalPosition ⟨frames, .complete operand⟩ rest =
      run limit finalPosition ⟨others, .complete other⟩ rest := by
  obtain ⟨resume, resumes⟩ := exists_resume limit finalPosition rest
  rw [resumes, resumes, same]

/-- If an operand cannot settle in front of the next token, reading ends with the error. -/
theorem run_complete_error {frames : List Frame} {operand : Operand} {rest : List Token}
    {error : ParseError}
    (failed : settle limit (nextBound rest) frames operand = .error error) :
    run limit finalPosition ⟨frames, .complete operand⟩ rest = .error error := by
  obtain ⟨resume, resumes⟩ := exists_resume limit finalPosition rest
  rw [resumes, failed]
  rfl

/-- A name that no parenthesis follows is a field. -/
theorem run_name {frames : List Frame} {rest : List Token} (name : String) (position : Nat)
    (not_call : ∀ token ∈ rest.head?, token.kind ≠ .leftParen) :
    run limit finalPosition ⟨frames, .name name position⟩ rest =
      run limit finalPosition ⟨frames, .complete (.leaf (.field name))⟩ rest := by
  cases rest with
  | nil => rfl
  | cons token rest =>
      have other : token.kind ≠ .leftParen := not_call token rfl
      by_cases last : token.kind = .endOfText
      · rw [run, run, if_pos last, if_pos last]
        rfl
      · rw [run_cons last, run_cons last, step, step]
        simp only [if_neg other]

end FormRules.Parser
