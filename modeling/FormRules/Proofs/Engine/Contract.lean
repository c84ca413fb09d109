import FormRules.Engine
import FormRules.Proofs.Engine.Calls

/-!
# Procedures among others

Between two calls of a procedure other procedures may make calls, so that its answers need not fit
together. What can be said of it then is a contract: as long as each answer is one to rely on, each
call is one that the procedure is allowed to make after the exchanges so far, and the result is one
that it may come to after all of them.
-/

namespace FormRules

/-- A call and its answer. -/
structure Engine.Exchange where
  action : Engine.Action
  answer : action.Answer

namespace Procedure

open Engine

variable {Result First Second : Type}

/-! ## Exchanges -/

/-- Some exchanges lead a procedure to what is left of it. -/
inductive Follows : Procedure Result → List Exchange → Procedure Result → Prop where
  | nothing (procedure : Procedure Result) : Follows procedure [] procedure
  | call {action : Action} {resume : action.Answer → Procedure Result} {answer : action.Answer}
      {trace : List Exchange} {rest : Procedure Result}
      (follows : Follows (resume answer) trace rest) :
      Follows (perform action resume) (⟨action, answer⟩ :: trace) rest

theorem Follows.append {procedure middle rest : Procedure Result} {front back : List Exchange}
    (first : procedure.Follows front middle) (second : middle.Follows back rest) :
    procedure.Follows (front ++ back) rest := by
  induction first with
  | nothing => exact second
  | call _ induction => exact .call (induction second)

/-- One more call. -/
theorem Follows.snoc {procedure : Procedure Result} {trace : List Exchange} {action : Action}
    {resume : action.Answer → Procedure Result}
    (follows : procedure.Follows trace (perform action resume)) (answer : action.Answer) :
    procedure.Follows (trace ++ [⟨action, answer⟩]) (resume answer) :=
  follows.append (.call (.nothing _))

/-- What is left after some exchanges goes on with the exchanges behind them. -/
theorem Follows.split {procedure middle rest : Procedure Result} {front back : List Exchange}
    (first : procedure.Follows front middle) (whole : procedure.Follows (front ++ back) rest) :
    middle.Follows back rest := by
  induction first with
  | nothing => exact whole
  | call _ induction =>
      cases whole with
      | call follows => exact induction follows

/-- A procedure in two parts is still in the first, or it went on with the result of the first. -/
theorem follows_bind {first : Procedure First} {next : First → Procedure Second}
    {trace : List Exchange} {rest : Procedure Second}
    (follows : (first >>= next).Follows trace rest) :
    (∃ action resume, first.Follows trace (perform action resume)) ∨
      ∃ front back result, trace = front ++ back ∧ first.Follows front (done result) ∧
        (next result).Follows back rest := by
  induction first generalizing trace with
  | done result => exact .inr ⟨[], trace, result, rfl, .nothing _, follows⟩
  | perform action resume induction =>
      cases follows with
      | nothing => exact .inl ⟨action, resume, .nothing _⟩
      | call follows =>
          obtain ⟨action', resume', inside⟩ | ⟨front, back, result, rfl, ended, rest⟩ :=
            induction _ follows
          · exact .inl ⟨action', resume', .call inside⟩
          · exact .inr ⟨_ :: front, back, result, rfl, .call ended, rest⟩

/-- A procedure that begins with a call has not made it, or went on with the answer. -/
theorem follows_call_bind {action : Action} {next : action.Answer → Procedure Result}
    {trace : List Exchange} {rest : Procedure Result}
    (follows : (call action >>= next).Follows trace rest) :
    (trace = [] ∧ rest = perform action next) ∨
      ∃ answer later, trace = ⟨action, answer⟩ :: later ∧ (next answer).Follows later rest := by
  cases follows with
  | nothing => exact .inl ⟨rfl, rfl⟩
  | call follows => exact .inr ⟨_, _, rfl, follows⟩

/-- The calls that were made are among those that a procedure may make. -/
theorem Within.follows {procedure rest : Procedure Result} {allowed : Action → Prop}
    {trace : List Exchange} (within : procedure.Within allowed)
    (follows : procedure.Follows trace rest) : ∀ exchange ∈ trace, allowed exchange.action := by
  induction follows with
  | nothing => simp
  | call _ induction =>
      rw [List.forall_mem_cons]
      exact ⟨within.1, induction (within.2 _)⟩

/-- A procedure makes no more than some number of calls, whatever the answers. -/
def CallsAtMost : Nat → Procedure Result → Prop
  | _, done _ => True
  | 0, perform _ _ => False
  | count + 1, perform _ resume => ∀ answer, (resume answer).CallsAtMost count

theorem CallsAtMost.mono {procedure : Procedure Result} {count larger : Nat}
    (bounded : procedure.CallsAtMost count) (le : count ≤ larger) :
    procedure.CallsAtMost larger := by
  induction procedure generalizing count larger with
  | done => cases larger <;> trivial
  | perform action resume induction =>
      cases count with
      | zero => exact bounded.elim
      | succ count =>
          obtain ⟨larger, rfl⟩ := Nat.exists_eq_add_of_le' (Nat.one_le_of_lt le)
          exact fun answer => induction answer (bounded answer) (Nat.le_of_succ_le_succ le)

theorem callsAtMost_pure (count : Nat) (result : Result) :
    (pure result : Procedure Result).CallsAtMost count := by
  cases count <;> trivial

theorem callsAtMost_call (action : Action) : (call action).CallsAtMost 1 :=
  fun _ => trivial

theorem callsAtMost_bind {first : Procedure First} {next : First → Procedure Second}
    {count others : Nat} (first_bounded : first.CallsAtMost count)
    (next_bounded : ∀ result, (next result).CallsAtMost others) :
    (first >>= next).CallsAtMost (count + others) := by
  induction first generalizing count with
  | done result => exact (next_bounded result).mono (Nat.le_add_left _ _)
  | perform action resume induction =>
      cases count with
      | zero => exact first_bounded.elim
      | succ count =>
          rw [Nat.succ_add]
          exact fun answer => induction answer (first_bounded answer)

/-- A procedure that is still under way has made fewer calls than it may. -/
theorem CallsAtMost.length_lt {procedure : Procedure Result} {count : Nat} {trace : List Exchange}
    {action : Action} {resume : action.Answer → Procedure Result}
    (bounded : procedure.CallsAtMost count)
    (follows : procedure.Follows trace (perform action resume)) : trace.length < count := by
  generalize rest_eq : perform action resume = rest at follows
  induction follows generalizing count with
  | nothing =>
      subst rest_eq
      cases count with
      | zero => exact bounded.elim
      | succ count => exact Nat.succ_pos count
  | call _ induction =>
      cases count with
      | zero => exact bounded.elim
      | succ count => exact Nat.succ_lt_succ (induction (bounded _) rest_eq)

/-! ## Contracts -/

/-- After the exchanges so far and as long as the answers can be relied on, a procedure makes calls
that are guaranteed and comes to a result with the postcondition. -/
def Abides (rely : Exchange → Prop) (guarantee : List Exchange → Action → Prop)
    (post : List Exchange → Result → Prop) : List Exchange → Procedure Result → Prop
  | trace, done result => post trace result
  | trace, perform action resume =>
      guarantee trace action ∧ ∀ answer, rely ⟨action, answer⟩ →
        (resume answer).Abides rely guarantee post (trace ++ [⟨action, answer⟩])

variable {rely : Exchange → Prop} {guarantee : List Exchange → Action → Prop}

theorem abides_pure {post : List Exchange → Result → Prop} {trace : List Exchange}
    {result : Result} (holds : post trace result) :
    (pure result : Procedure Result).Abides rely guarantee post trace :=
  holds

/-- A call keeps a contract if it is guaranteed and what follows each answer keeps it. -/
theorem abides_call_bind {action : Action} {next : action.Answer → Procedure Result}
    {post : List Exchange → Result → Prop} {trace : List Exchange}
    (allowed : guarantee trace action)
    (next_abides : ∀ answer, rely ⟨action, answer⟩ →
      (next answer).Abides rely guarantee post (trace ++ [⟨action, answer⟩])) :
    (call action >>= next).Abides rely guarantee post trace :=
  ⟨allowed, next_abides⟩

theorem abides_bind {first : Procedure First} {next : First → Procedure Second}
    {middle : List Exchange → First → Prop} {post : List Exchange → Second → Prop}
    {trace : List Exchange} (first_abides : first.Abides rely guarantee middle trace)
    (next_abides : ∀ trace result, middle trace result →
      (next result).Abides rely guarantee post trace) :
    (first >>= next).Abides rely guarantee post trace := by
  induction first generalizing trace with
  | done result => exact next_abides trace result first_abides
  | perform action resume induction =>
      exact ⟨first_abides.1, fun answer relied => induction answer (first_abides.2 answer relied)⟩

/-- Who relies on less, guarantees more and promises more of its result. -/
theorem Abides.mono {procedure : Procedure Result} {stronger : Exchange → Prop}
    {weaker : List Exchange → Action → Prop} {post weakerPost : List Exchange → Result → Prop}
    {trace : List Exchange} (abides : procedure.Abides rely guarantee post trace)
    (relied : ∀ exchange, stronger exchange → rely exchange)
    (allowed : ∀ trace action, guarantee trace action → weaker trace action)
    (holds : ∀ trace result, post trace result → weakerPost trace result) :
    procedure.Abides stronger weaker weakerPost trace := by
  induction procedure generalizing trace with
  | done result => exact holds trace result abides
  | perform action resume induction =>
      exact ⟨allowed trace action abides.1, fun answer answer_relied =>
        induction answer (abides.2 answer (relied _ answer_relied))⟩

theorem Abides.and {procedure : Procedure Result} {other : List Exchange → Action → Prop}
    {post otherPost : List Exchange → Result → Prop} {trace : List Exchange}
    (first : procedure.Abides rely guarantee post trace)
    (second : procedure.Abides rely other otherPost trace) :
    procedure.Abides rely (fun trace action => guarantee trace action ∧ other trace action)
      (fun trace result => post trace result ∧ otherPost trace result) trace := by
  induction procedure generalizing trace with
  | done result => exact ⟨first, second⟩
  | perform action resume induction =>
      exact ⟨⟨first.1, second.1⟩, fun answer relied =>
        induction answer (first.2 answer relied) (second.2 answer relied)⟩

/-- The calls of a procedure are recorded behind the ones before it. -/
theorem Within.abides {procedure : Procedure Result} {allowed : Action → Prop}
    {front : List Exchange} (within : procedure.Within allowed) :
    procedure.Abides rely
      (fun trace action => allowed action ∧
        ∃ made, trace = front ++ made ∧ ∀ exchange ∈ made, allowed exchange.action)
      (fun trace _ =>
        ∃ made, trace = front ++ made ∧ ∀ exchange ∈ made, allowed exchange.action) front := by
  suffices general : ∀ made : List Exchange, (∀ exchange ∈ made, allowed exchange.action) →
      procedure.Abides rely
        (fun trace action => allowed action ∧
          ∃ made, trace = front ++ made ∧ ∀ exchange ∈ made, allowed exchange.action)
        (fun trace _ =>
          ∃ made, trace = front ++ made ∧ ∀ exchange ∈ made, allowed exchange.action)
        (front ++ made) by
    simpa using general [] (by simp)
  intro made made_allowed
  induction procedure generalizing made with
  | done result => exact ⟨made, rfl, made_allowed⟩
  | perform action resume induction =>
      refine ⟨⟨within.1, made, rfl, made_allowed⟩, fun answer _ => ?_⟩
      rw [List.append_assoc]
      apply induction answer (within.2 answer)
      rw [List.forall_mem_append]
      exact ⟨made_allowed, by simpa using within.1⟩

/-- A contract holds along the exchanges that could be relied on. -/
theorem Abides.follows {procedure rest : Procedure Result} {post : List Exchange → Result → Prop}
    {front trace : List Exchange} (abides : procedure.Abides rely guarantee post front)
    (follows : procedure.Follows trace rest) (relied : ∀ exchange ∈ trace, rely exchange) :
    rest.Abides rely guarantee post (front ++ trace) := by
  induction follows generalizing front with
  | nothing => simpa using abides
  | call _ induction =>
      rw [List.forall_mem_cons] at relied
      simpa using induction (abides.2 _ relied.1) relied.2

end Procedure
end FormRules
