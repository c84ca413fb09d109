import FormRules.Proofs.Expr.Substitution

/-!
# Conjunction and disjunction

A conjunction evaluates its arguments in order as long as they are true, and a disjunction as long
as they are false. The first argument that is anything else decides and is the last one evaluated.
Two lists of arguments can therefore be evaluated one behind the other, and a conjunction inside a
conjunction can be replaced by its arguments.
-/

namespace FormRules

namespace Builtin

/-- The result of an argument that is not the flag decides the result of the whole. -/
inductive Decides (flag : Bool) : Except EvalError Value → Except EvalError Value → Prop where
  | opposite : Decides flag (.ok (.boolean !flag)) (.ok (.boolean !flag))
  | failure (error : EvalError) : Decides flag (.error error) (.error error)
  | notBoolean {value : Value} (other : value.kind ≠ .boolean) :
      Decides flag (.ok value) (.error (.typeMismatch "boolean" value.kind.name))

/-- A result is the flag, or it decides. -/
theorem flag_or_decides (flag : Bool) (found : Except EvalError Value) :
    found = .ok (.boolean flag) ∨ ∃ result, Decides flag found result := by
  cases found with
  | error error => exact .inr ⟨_, .failure error⟩
  | ok value =>
      cases value with
      | boolean verdict =>
          by_cases same : verdict = flag
          · exact .inl (by rw [same])
          · rw [Bool.eq_not.2 same]
            exact .inr ⟨_, .opposite⟩
      | _ => exact .inr ⟨_, .notBoolean nofun⟩

/-- The result of a part decides the whole once more. -/
theorem Decides.again {flag : Bool} {found result : Except EvalError Value}
    (decides : Decides flag found result) : Decides flag result result := by
  cases decides with
  | opposite => exact .opposite
  | failure error => exact .failure error
  | notBoolean => exact .failure _

section Effects

variable {Effect : Type → Type} [Monad Effect] {Argument : Type} {flag : Bool}

/-- What follows an argument with this result: the next thing if the result is the flag, and
nothing otherwise. -/
def proceed (flag : Bool) (next : Effect (Except EvalError Value)) :
    Except EvalError Value → Effect (Except EvalError Value)
  | .error error => return .error error
  | .ok (.boolean found) => if found = flag then next else return .ok (.boolean found)
  | .ok other => return .error (.notBoolean other)

theorem proceed_flag (next : Effect (Except EvalError Value)) :
    proceed flag next (.ok (.boolean flag)) = next :=
  if_pos rfl

theorem proceed_of_decides {found result : Except EvalError Value}
    (decides : Decides flag found result) (next : Effect (Except EvalError Value)) :
    proceed flag next found = pure result := by
  cases decides with
  | opposite => exact if_neg (by simp)
  | failure error => rfl
  | @notBoolean value other =>
      cases value with
      | boolean => exact absurd rfl other
      | _ => rfl

variable (evaluate : Argument → Effect (Except EvalError Value))

theorem whileFlag_cons (argument : Argument) (rest : List Argument) :
    whileFlag evaluate flag (argument :: rest) =
      evaluate argument >>= proceed flag (whileFlag evaluate flag rest) := by
  rw [whileFlag]
  refine congrArg (evaluate argument >>= ·) (funext fun found => ?_)
  cases found with
  | error error => rfl
  | ok value => cases value <;> rfl

/-- Arguments can be evaluated in two parts. -/
theorem whileFlag_append [LawfulMonad Effect] (front back : List Argument) :
    whileFlag evaluate flag (front ++ back) =
      whileFlag evaluate flag front >>= proceed flag (whileFlag evaluate flag back) := by
  induction front with
  | nil => rw [List.nil_append, whileFlag, pure_bind, proceed_flag]
  | cons argument front induction =>
      rw [List.cons_append, whileFlag_cons, whileFlag_cons, bind_assoc]
      refine bind_congr fun found => ?_
      obtain rfl | ⟨result, decides⟩ := flag_or_decides flag found
      · rw [proceed_flag, proceed_flag, induction]
      · rw [proceed_of_decides decides, proceed_of_decides decides, pure_bind,
          proceed_of_decides decides.again]

end Effects

/-! ## What is evaluated -/

section States

variable {State Argument : Type} (evaluate : Argument → StateM State (Except EvalError Value))
  {flag : Bool}

/-- Evaluates an argument and notes it behind those that were evaluated before. -/
def noting (argument : Argument) :
    StateT (List Argument) (StateM State) (Except EvalError Value) := do
  modify (· ++ [argument])
  evaluate argument

/-- Some arguments, evaluated in order from one state to another, are all the flag. -/
inductive Passes (flag : Bool) : State → List Argument → State → Prop where
  | nothing (state : State) : Passes flag state [] state
  | next {argument : Argument} {rest : List Argument} {before middle after : State}
      (found : (evaluate argument).run before = (.ok (.boolean flag), middle))
      (passes : Passes flag middle rest after) : Passes flag before (argument :: rest) after

/-- The result for some arguments, those of them that are evaluated, and the state behind. -/
inductive Settles (flag : Bool) (before : State) (arguments : List Argument) :
    Except EvalError Value → List Argument → State → Prop where
  /-- All arguments are the flag, and so is the result. -/
  | whole {after : State} (passes : Passes evaluate flag before arguments after) :
      Settles flag before arguments (.ok (.boolean flag)) arguments after
  /-- The first argument that is not the flag is the last one evaluated. -/
  | early {front back : List Argument} {argument : Argument} {middle after : State}
      {found result : Except EvalError Value} (split : arguments = front ++ argument :: back)
      (passes : Passes evaluate flag before front middle)
      (ends : (evaluate argument).run middle = (found, after))
      (decides : Decides flag found result) :
      Settles flag before arguments result (front ++ [argument]) after

variable {evaluate}

theorem Settles.next {argument : Argument} {arguments evaluated : List Argument}
    {before middle after : State} {result : Except EvalError Value}
    (found : (evaluate argument).run before = (.ok (.boolean flag), middle))
    (settles : Settles evaluate flag middle arguments result evaluated after) :
    Settles evaluate flag before (argument :: arguments) result (argument :: evaluated) after := by
  cases settles with
  | whole passes => exact .whole (.next found passes)
  | early split passes ends decides =>
      exact .early (congrArg (List.cons argument) split) (.next found passes) ends decides

section Runs

variable {argument : Argument} {before middle : State} {found : Except EvalError Value}
  (ends : (evaluate argument).run before = (found, middle)) (rest noted : List Argument)
include ends

theorem run_whileFlag_cons :
    (whileFlag evaluate flag (argument :: rest)).run before =
      (proceed flag (whileFlag evaluate flag rest) found).run middle := by
  rw [whileFlag_cons, StateT.run_bind, ends]
  rfl

theorem run_noting :
    ((noting evaluate argument).run noted).run before = ((found, noted ++ [argument]), middle) := by
  change ((((evaluate argument).run before).1, noted ++ [argument]),
    ((evaluate argument).run before).2) = _
  rw [ends]

theorem run_whileFlag_noting_cons :
    ((whileFlag (noting evaluate) flag (argument :: rest)).run noted).run before =
      ((proceed flag (whileFlag (noting evaluate) flag rest) found).run
        (noted ++ [argument])).run middle := by
  rw [whileFlag_cons, StateT.run_bind, StateT.run_bind, run_noting ends]
  rfl

end Runs

/-- Evaluating as long as arguments are the flag notes each argument up to the one that decides. -/
theorem whileFlag_settles (flag : Bool) (arguments noted : List Argument) (before : State) :
    ∃ result evaluated after,
      (whileFlag evaluate flag arguments).run before = (result, after) ∧
      ((whileFlag (noting evaluate) flag arguments).run noted).run before =
        ((result, noted ++ evaluated), after) ∧
      Settles evaluate flag before arguments result evaluated after := by
  induction arguments generalizing noted before with
  | nil =>
      refine ⟨_, [], before, rfl, ?_, .whole (.nothing before)⟩
      rw [List.append_nil]
      rfl
  | cons argument rest induction =>
      obtain ⟨found, middle, ends⟩ :
          ∃ found middle, (evaluate argument).run before = (found, middle) := ⟨_, _, rfl⟩
      rw [run_whileFlag_cons ends, run_whileFlag_noting_cons ends]
      obtain rfl | ⟨result, decides⟩ := flag_or_decides flag found
      · rw [proceed_flag, proceed_flag]
        obtain ⟨result, evaluated, after, plain, run, settles⟩ :=
          induction (noted ++ [argument]) middle
        rw [List.append_assoc] at run
        exact ⟨result, argument :: evaluated, after, plain, run, settles.next ends⟩
      · rw [proceed_of_decides decides, proceed_of_decides decides]
        exact ⟨result, [argument], middle, rfl, rfl,
          .early (List.nil_append _).symm (.nothing before) ends decides⟩

end States

/-- The function that evaluates arguments as long as they are the flag. -/
def junction : Bool → Builtin
  | true => conjunction
  | false => disjunction

theorem apply_junction {Effect : Type → Type} [Monad Effect] {Argument : Type}
    (evaluate : Argument → Effect (Except EvalError Value)) (today : Date) (flag : Bool)
    (arguments : List Argument) :
    (junction flag).apply evaluate today arguments = whileFlag evaluate flag arguments := by
  cases flag <;> rfl

end Builtin

/-! ## Calls by name -/

namespace Registry

/-- Conjunction and disjunction by name, each with the flag for which it goes on. -/
def junctions : List (String × Bool) :=
  [("AND", true), ("OR", false)]

section Resolution

variable {name : String} {count : Nat}

theorem resolve_builtin_of_mem {function : Function}
    (listed : (name, function) ∈ builtinFunctions) :
    builtin.resolve name count =
      if function.arity.accepts count then .ok function.builtin
      else .error (.arityMismatch name function.arity.display count) := by
  rw [resolve, builtin_eq_some_iff.2 listed]

theorem resolve_builtin_of_unlisted (unlisted : name ∉ builtinFunctions.map Prod.fst) :
    builtin.resolve name count = .error (.unknownFunction name) := by
  have missing : builtin[name]? = none := Option.eq_none_iff_forall_ne_some.2 fun _ found =>
    unlisted (List.mem_map_of_mem (builtin_eq_some_iff.1 found))
  rw [resolve, missing]

theorem mem_builtinFunctions_of_junction {flag : Bool} (junction : (name, flag) ∈ junctions) :
    (name, ⟨.atLeast 2, .junction flag⟩) ∈ builtinFunctions := by
  simp only [junctions, List.mem_cons, Prod.mk.injEq, List.not_mem_nil, or_false] at junction
  rcases junction with ⟨rfl, rfl⟩ | ⟨rfl, rfl⟩ <;> simp [builtinFunctions, Builtin.junction]

variable (name count)

/-- The language does not call a function by this name with so many arguments. -/
inductive Refuses : EvalError → Prop where
  | unknown (unlisted : name ∉ ["ISBLANK", "TODAY", "AND", "OR"]) :
      Refuses (.unknownFunction name)
  | tooFew {flag : Bool} (junction : (name, flag) ∈ junctions) (few : count < 2) :
      Refuses (.arityMismatch name "至少 2" count)
  | notOne (blankness : name = "ISBLANK") (other : count ≠ 1) :
      Refuses (.arityMismatch name "1" count)
  | notNone (date : name = "TODAY") (other : count ≠ 0) :
      Refuses (.arityMismatch name "0" count)

variable {name count}

theorem resolve_of_refuses {error : EvalError} (refuses : Refuses name count error) :
    builtin.resolve name count = .error error := by
  cases refuses with
  | unknown unlisted => exact resolve_builtin_of_unlisted unlisted
  | tooFew junction few =>
      rw [resolve_builtin_of_mem (mem_builtinFunctions_of_junction junction)]
      exact if_neg (by simpa [Arity.accepts] using few)
  | notOne blankness other =>
      subst blankness
      rw [resolve_builtin_of_mem List.mem_cons_self]
      exact if_neg (by simpa [Arity.accepts] using other)
  | notNone date other =>
      subst date
      rw [resolve_builtin_of_mem (List.mem_cons_of_mem _ List.mem_cons_self)]
      exact if_neg (by simpa [Arity.accepts] using other)

end Resolution

section Calls

variable {Effect : Type → Type} [Monad Effect] {Argument : Type} {name : String}
  {arguments : List Argument}

theorem call_of_refuses {error : EvalError} (refuses : Refuses name arguments.length error)
    (today : Date) (evaluate : Argument → Effect (Except EvalError Value)) :
    builtin.call today evaluate name arguments = pure (.error error) := by
  rw [call, resolve_of_refuses refuses]

theorem call_junction {flag : Bool} (junction : (name, flag) ∈ junctions)
    (enough : 2 ≤ arguments.length) (today : Date)
    (evaluate : Argument → Effect (Except EvalError Value)) :
    builtin.call today evaluate name arguments = Builtin.whileFlag evaluate flag arguments := by
  have accepted : (Arity.atLeast 2).accepts arguments.length = true := decide_eq_true enough
  rw [call, resolve_builtin_of_mem (mem_builtinFunctions_of_junction junction), if_pos accepted]
  exact Builtin.apply_junction evaluate today flag arguments

end Calls

/-- With enough arguments, a conjunction evaluates them in order, each once, up to and including the
first one that is not true, which decides, and a disjunction up to the first one that is not false.
A call that the language refuses evaluates no argument. -/
theorem call_evaluates_needed {State Argument : Type}
    (evaluate : Argument → StateM State (Except EvalError Value)) (today : Date)
    (arguments : List Argument) (before : State) :
    (∀ name flag, (name, flag) ∈ junctions → 2 ≤ arguments.length →
      ∃ result evaluated after,
        (builtin.call today evaluate name arguments).run before = (result, after) ∧
        ((builtin.call today (Builtin.noting evaluate) name arguments).run []).run before =
          ((result, evaluated), after) ∧
        Builtin.Settles evaluate flag before arguments result evaluated after) ∧
    ∀ name error, Refuses name arguments.length error →
      (builtin.call today evaluate name arguments).run before = (.error error, before) ∧
      ((builtin.call today (Builtin.noting evaluate) name arguments).run []).run before =
        ((.error error, []), before) := by
  constructor
  · intro name flag junction enough
    rw [call_junction junction enough, call_junction junction enough]
    exact Builtin.whileFlag_settles flag arguments [] before
  · intro name error refuses
    rw [call_of_refuses refuses, call_of_refuses refuses]
    exact ⟨rfl, rfl⟩

/-- With a counter of evaluations, a disjunction stops at two, behind the error of its second
argument, and a date that is asked for with arguments evaluates none. -/
theorem call_evaluates_needed_counter :
    let evaluate (result : Except EvalError Value) : StateM Nat (Except EvalError Value) := do
      modify (· + 1)
      return result
    let arguments : List (Except EvalError Value) :=
      [.ok (.boolean false), .error .divisionByZero, .ok (.boolean true)]
    let today : Date := ⟨2024, 6, 1, by decide⟩
    ("OR", false) ∈ junctions ∧ 2 ≤ arguments.length ∧
      Builtin.Settles evaluate false 0 arguments (.error .divisionByZero) (arguments.take 2) 2 ∧
      Refuses "TODAY" arguments.length (.arityMismatch "TODAY" "0" 3) ∧
      (builtin.call today evaluate "TODAY" arguments).run 0 =
        (.error (.arityMismatch "TODAY" "0" 3), 0) := by
  intro evaluate arguments today
  have listed : ("OR", false) ∈ junctions := by decide
  have enough : 2 ≤ arguments.length := by decide
  have refuses : Refuses "TODAY" arguments.length (.arityMismatch "TODAY" "0" 3) :=
    .notNone rfl (by decide)
  obtain ⟨needed, refused⟩ := call_evaluates_needed evaluate today arguments 0
  obtain ⟨result, evaluated, after, -, noted, settles⟩ := needed "OR" false listed enough
  have stops : ((builtin.call today (Builtin.noting evaluate) "OR" arguments).run []).run 0 =
      ((.error .divisionByZero, arguments.take 2), 2) := by
    rw [call_junction listed enough]
    rfl
  obtain ⟨rfl, rfl⟩ : (result = .error .divisionByZero ∧ evaluated = arguments.take 2) := by
    simpa using congrArg Prod.fst (noted.symm.trans stops)
  obtain rfl : after = 2 := congrArg Prod.snd (noted.symm.trans stops)
  exact ⟨listed, enough, settles, refuses, (refused _ _ refuses).1⟩

end Registry

/-! ## Nested calls -/

namespace Expr

theorem delayAll_eq_map (context : Context) (arguments : List Expr) :
    delayAll context arguments = arguments.map fun argument _ => argument.evaluate context := by
  induction arguments with
  | nil => rfl
  | cons head rest induction => rw [delayAll, induction, List.map_cons]

section Junctions

variable {name : String} {flag : Bool}

/-- A conjunction or disjunction as part of an expression. -/
theorem evaluate_junction (junction : (name, flag) ∈ Registry.junctions) (record : FieldRecord)
    (today : Date) {arguments : List Expr} (enough : 2 ≤ arguments.length) :
    (call name arguments).evaluate ⟨record, today, .builtin⟩ =
      Id.run (Builtin.whileFlag (fun delayed => pure (delayed ())) flag
        (arguments.map fun argument _ => argument.evaluate ⟨record, today, .builtin⟩)) := by
  rw [evaluate, delayAll_eq_map, Registry.call_junction junction (by rwa [List.length_map])]

/-- A conjunction among the arguments of a conjunction has the same effect as its own arguments in
its place, whatever their values and errors, and so has a disjunction in a disjunction. -/
theorem evaluate_nested_junction (junction : (name, flag) ∈ Registry.junctions)
    {front inner back : List Expr} (enough : 2 ≤ inner.length)
    (more : 1 ≤ front.length + back.length) (record : FieldRecord) (today : Date) :
    (call name (front ++ call name inner :: back)).evaluate ⟨record, today, .builtin⟩ =
      (call name (front ++ inner ++ back)).evaluate ⟨record, today, .builtin⟩ := by
  have nested : 2 ≤ (front ++ call name inner :: back).length := by
    rw [List.length_append, List.length_cons]
    omega
  have flat : 2 ≤ (front ++ (inner ++ back)).length := by
    rw [List.length_append, List.length_append]
    omega
  rw [List.append_assoc, evaluate_junction junction record today nested,
    evaluate_junction junction record today flat]
  -- On both sides stands what the front gives, then what the inner part gives, then the back.
  rw [List.map_append, List.map_cons, Builtin.whileFlag_append, Builtin.whileFlag_cons,
    List.map_append, Builtin.whileFlag_append, List.map_append, Builtin.whileFlag_append,
    evaluate_junction junction record today enough]
  rfl

end Junctions

/-- The error of an inner argument wins over a later argument that is not boolean. -/
theorem evaluate_nested_junction_failure :
    let quotient : Expr := .binary .div (.literal (.number .zero)) (.literal (.number .zero))
    let record := FieldRecord.empty
    let today : Date := ⟨2024, 6, 1, by decide⟩
    let front : List Expr := [.literal (.boolean true)]
    let inner : List Expr := [.literal (.boolean true), quotient]
    let back : List Expr := [.literal (.text "late")]
    ("AND", true) ∈ Registry.junctions ∧ 2 ≤ inner.length ∧ 1 ≤ front.length + back.length ∧
      (call "AND" (front ++ call "AND" inner :: back)).evaluate ⟨record, today, .builtin⟩ =
        (call "AND" (front ++ inner ++ back)).evaluate ⟨record, today, .builtin⟩ ∧
      (call "AND" (front ++ inner ++ back)).evaluate ⟨record, today, .builtin⟩ =
        .error .divisionByZero := by
  intro quotient record today front inner back
  have junction : ("AND", true) ∈ Registry.junctions := by decide
  have enough : 2 ≤ inner.length := by decide
  have more : 1 ≤ front.length + back.length := by decide
  have same := evaluate_nested_junction junction enough more record today
  have fails : (call "AND" (front ++ inner ++ back)).evaluate ⟨record, today, .builtin⟩ =
      .error .divisionByZero := by
    rw [evaluate_junction junction record today (by decide)]
    rfl
  exact ⟨junction, enough, more, same, fails⟩

end Expr
end FormRules
