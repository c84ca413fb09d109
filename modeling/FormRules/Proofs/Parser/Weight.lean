import FormRules.Proofs.Parser.Complete

/-!
# Limits that do not interfere

The limit bounds the constructs that are open at once and the heights of the trees. Neither is more
than the number of tokens that were read, so all limits that are no smaller than that number come
to the same with the next token: to one state, or to one fault at the place of the token.
-/

namespace FormRules.Parser

/-! ## Weights -/

/-- The sum of the heights of some operands. -/
def totalHeight (operands : List Operand) : Nat :=
  operands.foldr (fun operand height => operand.height + height) 0

@[simp]
theorem totalHeight_nil : totalHeight [] = 0 :=
  rfl

@[simp]
theorem totalHeight_cons (operand : Operand) (operands : List Operand) :
    totalHeight (operand :: operands) = operand.height + totalHeight operands :=
  rfl

/-- A construct was read from so many tokens at least. -/
def Frame.weight : Frame → Nat
  | negation _ | group _ => 1
  | operation left _ _ => left.height + 1
  | call _ _ _ arguments => totalHeight arguments + 1

/-- What was read last was read from so many tokens at least. -/
def Focus.weight : Focus → Nat
  | operand => 0
  | name .. => 1
  | complete whole => whole.height

/-- The weight of all open constructs. -/
def weight (frames : List Frame) : Nat :=
  frames.foldr (fun frame total => frame.weight + total) 0

/-- The weight of all that was read. -/
def State.weight (state : State) : Nat :=
  Parser.weight state.frames + state.focus.weight

@[simp]
theorem weight_nil : weight [] = 0 :=
  rfl

@[simp]
theorem weight_cons (frame : Frame) (frames : List Frame) :
    weight (frame :: frames) = frame.weight + weight frames :=
  rfl

@[simp]
theorem weight_initial : State.initial.weight = 0 :=
  rfl

theorem depth_le_weight (frames : List Frame) : depth frames ≤ weight frames := by
  induction frames with
  | nil => exact Nat.le_refl 0
  | cons frame frames induction =>
      cases frame <;> simp only [depth_negation, depth_operation, depth_group, depth_call,
        weight_cons, Frame.weight] <;> omega

theorem greatestHeight_le (operands : List Operand) :
    greatestHeight operands ≤ totalHeight operands := by
  induction operands with
  | nil => exact Nat.le_refl 0
  | cons operand rest induction =>
      rw [totalHeight_cons]
      exact Nat.max_le.2 ⟨Nat.le_add_right .., Nat.le_trans induction (Nat.le_add_left ..)⟩

/-! ## One outcome -/

/-- All limits from one on come to one state of no more than that weight, or to one fault at a
place. -/
def Uniform (least position : Nat) (read : Nat → Except ParseError State) : Prop :=
  (∃ next : State, next.weight ≤ least ∧ ∀ limit, least ≤ limit → read limit = .ok next) ∨
  ∃ fault : Fault, ∀ limit, least ≤ limit → read limit = .error (fault.error position)

/-- However an operand settles, its weight moves from the constructs that take it to the operand
that they make. -/
theorem exists_settle (bound : Nat) (frames : List Frame) (operand : Operand) :
    ∃ outer whole, weight outer + whole.height ≤ weight frames + operand.height ∧
      ∀ limit, weight frames + operand.height ≤ limit →
        settle limit bound frames operand = .ok (outer, whole) := by
  induction frames generalizing operand with
  | nil => exact ⟨[], operand, Nat.le_refl _, fun _ _ => rfl⟩
  | cons frame frames induction =>
      have kept (keeps : Keeps bound (frame :: frames)) :
          ∃ outer whole, weight outer + whole.height ≤ weight (frame :: frames) + operand.height ∧
            ∀ limit, weight (frame :: frames) + operand.height ≤ limit →
              settle limit bound (frame :: frames) operand = .ok (outer, whole) :=
        ⟨_, operand, Nat.le_refl _, fun _ _ => settle_of_keeps keeps operand⟩
      cases frame with
      | negation position =>
          obtain ⟨outer, whole, weight_le, settles⟩ :=
            induction ⟨.negate operand.expr, 1 + operand.height⟩
          simp only [weight_cons, Frame.weight] at weight_le ⊢
          refine ⟨outer, whole, by omega, fun limit large => ?_⟩
          rw [settle_negation, build_of_le (by omega)]
          exact settles limit (by dsimp only; omega)
      | operation left op position =>
          by_cases taken : bound ≤ op.precedence
          · obtain ⟨outer, whole, weight_le, settles⟩ :=
              induction ⟨.binary op left.expr operand.expr, 1 + max left.height operand.height⟩
            simp only [weight_cons, Frame.weight] at weight_le ⊢
            refine ⟨outer, whole, by omega, fun limit large => ?_⟩
            rw [settle_operation taken, build_of_le (by omega)]
            exact settles limit (by dsimp only; omega)
          · exact kept (Nat.lt_of_not_le taken)
      | group => exact kept trivial
      | call => exact kept trivial

section Uniform

variable {least position : Nat} {frames : List Frame} {operand : Operand} {token : Token}

theorem uniform_ok {next : State} (light : next.weight ≤ least) :
    Uniform least position fun _ => .ok next :=
  .inl ⟨next, light, fun _ _ => rfl⟩

theorem uniform_error (fault : Fault) :
    Uniform least position fun _ => .error (fault.error position) :=
  .inr ⟨fault, fun _ _ => rfl⟩

theorem Uniform.congr {read other : Nat → Except ParseError State}
    (uniform : Uniform least position other)
    (same : ∀ limit, least ≤ limit → read limit = other limit) : Uniform least position read := by
  obtain ⟨next, light, reads⟩ | ⟨fault, fails⟩ := uniform
  · exact .inl ⟨next, light, fun limit large => (same limit large).trans (reads limit large)⟩
  · exact .inr ⟨fault, fun limit large => (same limit large).trans (fails limit large)⟩

theorem uniform_openFrame {frame : Frame} (small : frame.weight = 1)
    (light : weight frames + 1 ≤ least) (place : Nat) :
    Uniform least position fun limit => openFrame limit frame place frames := by
  have depth_le := depth_le_weight frames
  have opened : State.weight ⟨frame :: frames, .operand⟩ ≤ least := by
    simp only [State.weight, weight_cons, small, Focus.weight]
    omega
  exact (uniform_ok opened).congr fun limit large => openFrame_of_lt (by omega) frame place

theorem uniform_closeCall {function : String} {arguments : List Operand}
    (light : weight frames + (1 + totalHeight arguments) ≤ least) (place : Nat) :
    Uniform least position fun limit => closeCall limit function place arguments frames := by
  have height_le := greatestHeight_le arguments
  let node : Operand :=
    ⟨.call function (arguments.reverse.map Operand.expr), 1 + greatestHeight arguments⟩
  have closed : State.weight ⟨frames, .complete node⟩ ≤ least := by
    simp only [State.weight, Focus.weight, node]
    omega
  refine (uniform_ok closed).congr fun limit large => ?_
  rw [closeCall, build_of_le (by omega)]
  rfl

theorem uniform_readDelimiter (light : weight frames + operand.height ≤ least) :
    Uniform least token.position fun limit => readDelimiter limit frames operand token := by
  unfold readDelimiter
  split
  · refine uniform_ok ?_
    simp only [weight_cons] at light
    simp only [State.weight, Focus.weight]
    omega
  · refine uniform_ok ?_
    simp only [weight_cons, Frame.weight] at light
    simp only [State.weight, Focus.weight, weight_cons, Frame.weight, totalHeight_cons]
    omega
  · refine uniform_closeCall ?_ _
    simp only [weight_cons, Frame.weight] at light
    rw [totalHeight_cons]
    omega
  · exact uniform_error _
  · exact uniform_error _
  · exact uniform_error _

theorem uniform_readAfter (light : weight frames + operand.height + 1 ≤ least) :
    Uniform least token.position fun limit => readAfter limit frames operand token := by
  unfold readAfter
  cases binaryOp? token.kind with
  | some op =>
      obtain ⟨outer, left, weight_le, settles⟩ := exists_settle op.precedence frames operand
      have joined :
          State.weight ⟨.operation left op token.position :: outer, .operand⟩ ≤ least := by
        simp only [State.weight, Focus.weight, weight_cons, Frame.weight]
        omega
      refine (uniform_ok joined).congr fun limit large => ?_
      dsimp only
      rw [settles limit (by omega)]
      rfl
  | none =>
      obtain ⟨outer, whole, weight_le, settles⟩ := exists_settle 0 frames operand
      have settled : weight outer + whole.height ≤ least := by omega
      refine (uniform_readDelimiter settled).congr fun limit large => ?_
      dsimp only
      rw [settles limit (by omega)]
      rfl

theorem uniform_readOperand (light : weight frames + 1 ≤ least) :
    Uniform least token.position fun limit => readOperand limit frames token := by
  unfold readOperand
  split
  · exact uniform_ok light
  · exact uniform_ok light
  · exact uniform_ok light
  · exact uniform_openFrame rfl light _
  · exact uniform_openFrame rfl light _
  · split
    · refine uniform_closeCall ?_ _
      simp only [weight_cons, Frame.weight] at light
      omega
    · exact uniform_error _
    · exact uniform_error _
  · exact uniform_error _

/-- A complete operand is the whole expression, or something around it was never closed. -/
theorem uniform_finishOperand (frames : List Frame) (operand : Operand) :
    (∃ expr, ∀ limit position, weight frames + operand.height ≤ limit →
      finishOperand limit frames operand position = .ok expr) ∨
    ∃ fault : Fault, ∀ limit position, weight frames + operand.height ≤ limit →
      finishOperand limit frames operand position = .error (fault.error position) := by
  obtain ⟨outer, whole, -, settles⟩ := exists_settle 0 frames operand
  unfold finishOperand
  match outer with
  | [] | .negation _ :: _ | .operation .. :: _ =>
      refine .inl ⟨whole.expr, fun limit position large => ?_⟩
      rw [settles limit large]
      rfl
  | .group opening :: _ | .call _ _ opening _ :: _ =>
      refine .inr ⟨.unclosedParen opening, fun limit position large => ?_⟩
      rw [settles limit large]
      rfl

end Uniform

/-- All limits that are greater than the weight of what was read come to the same with one more
token. -/
theorem uniform_step (state : State) (token : Token) :
    Uniform (state.weight + 1) token.position fun limit => step limit state token := by
  obtain ⟨frames, focus⟩ := state
  cases focus with
  | operand => exact uniform_readOperand (Nat.le_refl _)
  | name name position =>
      unfold step
      dsimp only
      split
      · exact uniform_openFrame rfl (by simp [State.weight, Focus.weight]) _
      · exact uniform_readAfter (Nat.le_refl _)
  | complete operand => exact uniform_readAfter (Nat.le_refl _)

/-- All limits that are no smaller than the weight of what was read come to the same at the end of
the text. -/
theorem uniform_finish (state : State) :
    (∃ expr, ∀ limit position, state.weight ≤ limit →
      finish limit state position = .ok expr) ∨
    ∃ fault : Fault, ∀ limit position, state.weight ≤ limit →
      finish limit state position = .error (fault.error position) := by
  obtain ⟨frames, focus⟩ := state
  cases focus with
  | operand =>
      cases frames with
      | nil => exact .inr ⟨.emptyExpression, fun _ _ _ => rfl⟩
      | cons frame frames => exact .inr ⟨.missingOperand, fun _ _ _ => rfl⟩
  | name name position => exact uniform_finishOperand frames (.leaf (.field name))
  | complete operand => exact uniform_finishOperand frames operand

end FormRules.Parser
