import FormRules.Proofs.Compilation
import FormRules.Proofs.Parser.Noted

/-!
# The heights that reading goes by

The reader keeps a height with every operand and computes that of a node from those of its parts.
So it goes by the heights of the trees, as the descent does with those that it finds by walks and
lets run along.
-/

namespace FormRules.Parser

/-! ## The states of the reader -/

/-- The height that is kept with an operand is that of its tree. -/
def Operand.Exact (operand : Operand) : Prop :=
  operand.height = operand.expr.height

/-- The operands of a construct have the heights that are kept with them. -/
def Frame.Exact : Frame → Prop
  | negation _ | group _ => True
  | operation left _ _ => left.Exact
  | call _ _ _ arguments => ∀ argument ∈ arguments, argument.Exact

/-- What was read last has the height that is kept with it. -/
def Focus.Exact : Focus → Prop
  | operand | name .. => True
  | complete whole => whole.Exact

/-- All operands have the heights that are kept with them. -/
structure State.Exact (state : State) : Prop where
  frames : ∀ frame ∈ state.frames, frame.Exact
  focus : state.focus.Exact

theorem exact_initial : State.initial.Exact :=
  ⟨by simp [State.initial], trivial⟩

theorem Operand.Exact.eq_of {operand : Operand} (exact : operand.Exact) :
    .of operand.expr = operand := by
  rw [Operand.of, ← exact]

/-- The arguments of a call come last one first. -/
theorem greatestHeight_eq_maxHeight {arguments : List Operand}
    (exact : ∀ argument ∈ arguments, argument.Exact) :
    greatestHeight arguments = Expr.maxHeight (arguments.reverse.map Operand.expr) := by
  have same : (arguments.reverse.map Operand.expr).reverse.map .of = arguments := by
    rw [← List.map_reverse, List.reverse_reverse, List.map_map]
    refine (List.map_congr_left fun argument member => ?_).trans (List.map_id arguments)
    exact (exact argument member).eq_of
  rw [← greatestHeight_reverse, same]

/-! ## One step -/

/-- What comes out, if anything does, has a property. -/
def Yields {Result : Type} (property : Result → Prop) (outcome : Except ParseError Result) : Prop :=
  ∀ result, outcome = .ok result → property result

section Yields

variable {First Result : Type} {property : Result → Prop}

theorem Yields.ok {result : Result} (holds : property result) : Yields property (.ok result) :=
  fun _ ok => Except.ok.inj ok ▸ holds

theorem Yields.ofError (error : ParseError) : Yields property (.error error) :=
  nofun

theorem Yields.bind {between : First → Prop} {first : Except ParseError First}
    {next : First → Except ParseError Result} (yields : Yields between first)
    (goes_on : ∀ value, between value → Yields property (next value)) :
    Yields property (first >>= next) := by
  intro result ok
  obtain ⟨value, value_eq, result_eq⟩ := bind_eq_ok.1 ok
  exact goes_on value (yields value value_eq) result result_eq

end Yields

variable {limit : Nat}

theorem build_exact {expr : Expr} {height : Nat} (exact : height = expr.height) (position : Nat) :
    Yields Operand.Exact (build limit expr height position) := by
  unfold build
  split
  · exact .ok exact
  · exact .ofError _

theorem openFrame_exact (frame : Frame) {frames : List Frame} (frame_exact : frame.Exact)
    (frames_exact : ∀ frame ∈ frames, frame.Exact) (position : Nat) :
    Yields State.Exact (openFrame limit frame position frames) := by
  unfold openFrame
  split
  · exact .ok ⟨List.forall_mem_cons.2 ⟨frame_exact, frames_exact⟩, trivial⟩
  · exact .ofError _

/-- The nodes that take an operand have the heights that were checked for them. -/
theorem settle_exact (bound : Nat) (frames : List Frame) {operand : Operand}
    (frames_exact : ∀ frame ∈ frames, frame.Exact) (exact : operand.Exact) :
    Yields (fun settled => (∀ frame ∈ settled.1, frame.Exact) ∧ settled.2.Exact)
      (settle limit bound frames operand) := by
  induction frames generalizing operand with
  | nil => exact .ok ⟨frames_exact, exact⟩
  | cons frame frames induction =>
      obtain ⟨frame_exact, outer_exact⟩ := List.forall_mem_cons.1 frames_exact
      cases frame with
      | negation position =>
          rw [settle_negation]
          refine (build_exact ?_ position).bind fun node => induction outer_exact
          rw [exact, Expr.height]
      | operation left op position =>
          by_cases taken : bound ≤ op.precedence
          · rw [settle_operation taken]
            refine (build_exact ?_ position).bind fun node => induction outer_exact
            rw [exact, show left.height = left.expr.height from frame_exact, Expr.height]
          · have keeps : Keeps bound (.operation left op position :: frames) :=
              Nat.lt_of_not_le taken
            rw [settle_of_keeps keeps]
            exact .ok ⟨frames_exact, exact⟩
      | group => exact .ok ⟨frames_exact, exact⟩
      | call => exact .ok ⟨frames_exact, exact⟩

theorem closeCall_exact {arguments : List Operand} {frames : List Frame}
    (arguments_exact : ∀ argument ∈ arguments, argument.Exact)
    (frames_exact : ∀ frame ∈ frames, frame.Exact) (function : String) (position : Nat) :
    Yields State.Exact (closeCall limit function position arguments frames) := by
  refine (build_exact ?_ position).bind fun node node_exact => .ok ⟨frames_exact, node_exact⟩
  rw [greatestHeight_eq_maxHeight arguments_exact, Expr.height]

theorem readOperand_exact {frames : List Frame} (exact : ∀ frame ∈ frames, frame.Exact)
    (token : Token) : Yields State.Exact (readOperand limit frames token) := by
  unfold readOperand
  split
  · exact .ok ⟨exact, rfl⟩
  · exact .ok ⟨exact, rfl⟩
  · exact .ok ⟨exact, trivial⟩
  · exact openFrame_exact (.negation _) trivial exact _
  · exact openFrame_exact (.group _) trivial exact _
  · split
    · exact closeCall_exact (by simp) (List.forall_mem_cons.1 exact).2 _ _
    · exact .ofError _
    · exact .ofError _
  · exact .ofError _

theorem readDelimiter_exact {frames : List Frame} {operand : Operand}
    (frames_exact : ∀ frame ∈ frames, frame.Exact) (exact : operand.Exact) (token : Token) :
    Yields State.Exact (readDelimiter limit frames operand token) := by
  unfold readDelimiter
  split
  · exact .ok ⟨(List.forall_mem_cons.1 frames_exact).2, exact⟩
  · obtain ⟨arguments_exact, outer_exact⟩ := List.forall_mem_cons.1 frames_exact
    have more_exact := List.forall_mem_cons.2 ⟨exact, arguments_exact⟩
    exact .ok ⟨List.forall_mem_cons.2 ⟨more_exact, outer_exact⟩, trivial⟩
  · obtain ⟨arguments_exact, outer_exact⟩ := List.forall_mem_cons.1 frames_exact
    exact closeCall_exact (List.forall_mem_cons.2 ⟨exact, arguments_exact⟩) outer_exact _ _
  all_goals exact .ofError _

theorem readAfter_exact {frames : List Frame} {operand : Operand}
    (frames_exact : ∀ frame ∈ frames, frame.Exact) (exact : operand.Exact) (token : Token) :
    Yields State.Exact (readAfter limit frames operand token) := by
  unfold readAfter
  split
  · next op _ =>
      refine (settle_exact op.precedence frames frames_exact exact).bind
        fun (outer, left) ⟨outer_exact, left_exact⟩ => ?_
      exact .ok ⟨List.forall_mem_cons.2 ⟨left_exact, outer_exact⟩, trivial⟩
  · refine (settle_exact 0 frames frames_exact exact).bind
      fun (outer, whole) ⟨outer_exact, whole_exact⟩ => ?_
    exact readDelimiter_exact outer_exact whole_exact token

/-- Every token leaves the kept heights those of the trees. -/
theorem step_exact {state : State} (exact : state.Exact) (token : Token) :
    Yields State.Exact (step limit state token) := by
  obtain ⟨frames, focus⟩ := state
  obtain ⟨frames_exact, focus_exact⟩ := exact
  cases focus with
  | operand => exact readOperand_exact frames_exact token
  | name name position =>
      rw [step]
      dsimp only
      split
      · exact openFrame_exact _ (by simp [Frame.Exact]) frames_exact position
      · have leaf_exact : (Operand.leaf (.field name)).Exact := rfl
        exact readAfter_exact frames_exact leaf_exact token
  | complete operand => exact readAfter_exact frames_exact focus_exact token

theorem foldlM_step_exact {state : State} (exact : state.Exact) (tokens : List Token) :
    Yields State.Exact (tokens.foldlM (step limit) state) := by
  induction tokens generalizing state with
  | nil => exact .ok exact
  | cons token rest induction =>
      rw [List.foldlM_cons]
      exact (step_exact exact token).bind fun next next_exact => induction next_exact

/-! ## Agreement -/

/-- A walk finds the height of every expression, whatever its order. The heights that the descent
finds by such walks, lets run along in its loops over operators and checks in front of the nodes
that it builds are those of the trees; it reads what it reads without notes, and what it checks are
the operations and calls of the expression that it reads. And the heights that the reader keeps with
its operands are those of the trees after every token. -/
theorem heights_agree (order : Expr.WalkOrder) (expr : Expr) (limit budget : Nat)
    (tokens : List Token) :
    expr.heightByWalk order = expr.height ∧
      (noteDescent order limit budget tokens).outcome = descend limit budget tokens ∧
      (∀ note ∈ (noteDescent order limit budget tokens).notes, note.Exact) ∧
      (∀ read, descend limit budget tokens = .ok read →
        (noteDescent order limit budget tokens).checked = read.innerNodes) ∧
      ∀ state, tokens.foldlM (step limit) .initial = .ok state → state.Exact := by
  have accounts := noteDescent_accounts order limit budget tokens
  exact ⟨expr.heightByWalk_eq_height order, accounts.outcome_eq, accounts.exact, accounts.checked,
    foldlM_step_exact exact_initial tokens⟩

end FormRules.Parser
