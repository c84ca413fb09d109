import FormRules.Compile

/-!
# What compiles

A text compiles if it is short enough, splits into tokens and the tokens are an expression. The
compiled expression keeps the text and the tree. Whatever fails on the way is what the whole
compilation fails with.
-/

namespace FormRules

section Stages

variable {First Second Value Error Reason : Type}

theorem bind_eq_ok {result : Except Error First} {next : First → Except Error Second}
    {value : Second} :
    result.bind next = .ok value ↔ ∃ middle, result = .ok middle ∧ next middle = .ok value := by
  cases result <;> simp [Except.bind]

theorem bind_eq_error {result : Except Error First} {next : First → Except Error Second}
    {error : Error} :
    result.bind next = .error error ↔
      result = .error error ∨ ∃ middle, result = .ok middle ∧ next middle = .error error := by
  cases result <;> simp [Except.bind]

theorem map_eq_ok {result : Except Error First} {convert : First → Second} {value : Second} :
    result.map convert = .ok value ↔ ∃ middle, result = .ok middle ∧ convert middle = value := by
  cases result <;> simp [Except.map]

theorem map_eq_error {result : Except Error First} {convert : First → Second} {error : Error} :
    result.map convert = .error error ↔ result = .error error := by
  cases result <;> simp [Except.map]

theorem mapError_eq_ok {result : Except Reason Value} {wrap : Reason → Error} {value : Value} :
    result.mapError wrap = .ok value ↔ result = .ok value := by
  cases result with
  | ok other =>
      change (.ok other : Except Error Value) = .ok value ↔ _
      simp
  | error reason => exact ⟨nofun, nofun⟩

theorem mapError_eq_error {result : Except Reason Value} {wrap : Reason → Error} {error : Error} :
    result.mapError wrap = .error error ↔
      ∃ reason, result = .error reason ∧ wrap reason = error := by
  cases result with
  | ok value => exact ⟨nofun, nofun⟩
  | error reason =>
      change (.error (wrap reason) : Except Error Value) = .error error ↔ _
      simp

end Stages

theorem Expr.ofSource_eq_ok_iff {limit : Nat} {source : String} {expr : Expr} :
    Expr.ofSource limit source = .ok expr ↔
      ∃ tokens, Token.list source = .ok tokens ∧ Expr.ofTokens limit tokens = .ok expr := by
  constructor
  · intro read
    obtain ⟨tokens, lexed, parsed⟩ := bind_eq_ok.1 read
    exact ⟨tokens, mapError_eq_ok.1 lexed, mapError_eq_ok.1 parsed⟩
  · rintro ⟨tokens, lexed, parsed⟩
    exact bind_eq_ok.2 ⟨tokens, mapError_eq_ok.2 lexed, mapError_eq_ok.2 parsed⟩

theorem CompiledExpression.ofSource_eq_ok_iff {limits : Limits} {source : String}
    {compiled : CompiledExpression} :
    CompiledExpression.ofSource limits source = .ok compiled ↔
      source.utf8ByteSize ≤ limits.maxExpressionLength ∧
        Expr.ofSource limits.maxDepth source = .ok compiled.expr ∧
        compiled = ⟨source, compiled.expr, compiled.expr.referencedFields⟩ := by
  rw [CompiledExpression.ofSource]
  by_cases long : limits.maxExpressionLength < source.utf8ByteSize
  · rw [if_pos long]
    simp [Nat.not_le_of_lt long]
  · rw [if_neg long, map_eq_ok]
    have short := Nat.le_of_not_lt long
    constructor
    · rintro ⟨expr, read, rfl⟩
      exact ⟨short, read, rfl⟩
    · rintro ⟨-, read, compiled_eq⟩
      exact ⟨compiled.expr, read, compiled_eq.symm⟩

/-- The expression compiles within the limits. -/
def Limits.Admit (limits : Limits) (source : String) : Prop :=
  ∃ compiled, CompiledExpression.ofSource limits source = .ok compiled

instance (limits : Limits) : DecidablePred limits.Admit := fun source =>
  match result : CompiledExpression.ofSource limits source with
  | .ok compiled => isTrue ⟨compiled, result⟩
  | .error _ => isFalse fun ⟨_, compiles⟩ => nomatch result.symm.trans compiles

theorem Limits.not_admit_of_error {limits : Limits} {source : String} {error : RuleError}
    (failed : CompiledExpression.ofSource limits source = .error error) :
    ¬ limits.Admit source := by
  rintro ⟨compiled, compiles⟩
  simp [failed] at compiles

end FormRules
