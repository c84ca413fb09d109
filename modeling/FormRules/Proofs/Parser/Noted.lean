import FormRules.Proofs.Expr.Walk
import FormRules.Proofs.Parser.Complete
import FormRules.Proofs.Parser.Descent

/-!
# The descent with notes of its heights

The descent finds the height of an operand by a walk where it meets one, lets the height of a left
operand run along while operations are built on it, and checks a height in front of every node that
it builds. Here it notes all of these. What it reads does not depend on the notes, every noted
height is that of the tree, and the checked nodes are those of the expression that is read, in the
order in which they are built.
-/

namespace FormRules

namespace Expr

mutual

/-- The operations and calls in an expression, each one behind those in its parts. -/
def innerNodes : Expr → List Expr
  | literal _ | field _ => []
  | negate operand => operand.innerNodes ++ [negate operand]
  | binary op left right => left.innerNodes ++ right.innerNodes ++ [binary op left right]
  | call function arguments => allInnerNodes arguments ++ [call function arguments]

/-- The operations and calls in some expressions. -/
def allInnerNodes : List Expr → List Expr
  | [] => []
  | expr :: rest => expr.innerNodes ++ allInnerNodes rest

end

theorem allInnerNodes_append_singleton (exprs : List Expr) (expr : Expr) :
    allInnerNodes (exprs ++ [expr]) = allInnerNodes exprs ++ expr.innerNodes := by
  induction exprs with
  | nil => simp [allInnerNodes]
  | cons head rest induction => simp [allInnerNodes, induction]

end Expr

namespace Parser

/-! ## Notes -/

/-- What the descent notes. -/
inductive Note where
  /-- In front of each round of the loop over operators: the left operand so far, and the height
  that runs along. -/
  | round (left : Expr) (height : Nat)
  /-- In front of each node: the node to be built, and the height that is checked. -/
  | check (node : Expr) (height : Nat)

namespace Note

/-- The noted height is the height of the tree. -/
def Exact : Note → Prop
  | round left height => height = left.height
  | check node height => height = node.height

/-- The node that is checked, if one is. -/
def checked? : Note → Option Expr
  | round .. => none
  | check node _ => some node

end Note

/-- How a computation ends, and what is noted up to there. -/
structure Noted (Result : Type) where
  notes : List Note
  outcome : Except Halt Result

namespace Noted

/-- Goes on with the result of a computation, if it has one. -/
def andThen {First Result : Type} (first : Noted First) (next : First → Noted Result) :
    Noted Result :=
  match first.outcome with
  | .ok value => ⟨first.notes ++ (next value).notes, (next value).outcome⟩
  | .error halt => ⟨first.notes, .error halt⟩

instance : Monad Noted where
  pure result := ⟨[], .ok result⟩
  bind := andThen

/-- A computation without notes. -/
def silent {Result : Type} (outcome : Except Halt Result) : Noted Result :=
  ⟨[], outcome⟩

/-- Notes something. -/
def write (note : Note) : Noted Unit :=
  ⟨[note], .ok ()⟩

/-- The nodes that are checked. -/
def checked {Result : Type} (noted : Noted Result) : List Expr :=
  noted.notes.filterMap Note.checked?

end Noted

/-- What a function of the descent does, with its notes. -/
abbrev NotedReading (Result : Type) : Type :=
  Cursor → Noted (Result × Cursor)

/-! ## The descent with its notes -/

section Descent

variable (order : Expr.WalkOrder) (limit : Nat)

/-- Notes the node that is to be built and rejects it if its height is too great. -/
def checkNode (node : Expr) (height position : Nat) : Noted Unit := do
  .write (.check node height)
  .silent (checkHeight limit height position)

/-- Reads on behind a left operand, as `readOperations` does. -/
def noteOperations (least : Nat) (operand : Nat → NotedReading Expr) :
    (rounds : Nat) → Expr → Nat → NotedReading Expr
  | 0, _, _, _ => .silent (.error .exhausted)
  | rounds + 1, left, height, cursor => do
      .write (.round left height)
      match binaryOp? cursor.current.kind with
      | none => return (left, cursor)
      | some op =>
          if op.precedence < least then return (left, cursor)
          else do
            let (right, next) ← operand (op.precedence + 1) cursor.advance
            let above := 1 + max height (right.heightByWalk order)
            checkNode limit (.binary op left right) above cursor.current.position
            noteOperations least operand rounds (.binary op left right) above next

/-- Reads arguments behind some others, as `readArguments` does. -/
def noteArguments (function : String) (argument : NotedReading Expr) :
    (rounds : Nat) → List Expr → NotedReading (List Expr)
  | 0, _, _ => .silent (.error .exhausted)
  | rounds + 1, given, cursor => do
      let (expr, next) ← argument cursor
      if next.current.kind = .comma then
        let behind := next.advance
        if behind.current.kind = .rightParen then
          .silent (.error (.fault ((Fault.trailingComma function).error behind.current.position)))
        else noteArguments function argument rounds (given ++ [expr]) behind
      else return (given ++ [expr], next)

/-- The greatest of the heights that walks find, zero if there are no expressions. -/
def greatestByWalk (exprs : List Expr) : Nat :=
  exprs.foldr (fun expr greatest => max (expr.heightByWalk order) greatest) 0

mutual

/-- Reads an expression, as `readExpression` does. -/
def noteExpression : (budget : Nat) → NotedReading Expr
  | 0, _ => .silent (.error .exhausted)
  | budget + 1, cursor => noteBinary budget 0 cursor

/-- Reads an operand and the operations behind it, as `readBinary` does. -/
def noteBinary : (budget least : Nat) → NotedReading Expr
  | 0, _, _ => .silent (.error .exhausted)
  | budget + 1, least, cursor => do
      let (left, next) ← noteUnary budget cursor
      noteOperations order limit least (fun tighter => noteBinary budget tighter)
        next.tokens.length left (left.heightByWalk order) next

/-- Reads a primary with the minus signs in front of it, as `readUnary` does. -/
def noteUnary : (budget : Nat) → NotedReading Expr
  | 0, _ => .silent (.error .exhausted)
  | budget + 1, cursor =>
      if cursor.current.kind = .minus then do
        let entered ← .silent (cursor.advance.enter limit cursor.current.position)
        let (operand, next) ← noteUnary budget entered
        let left ← .silent next.leave
        checkNode limit (.negate operand) (1 + operand.heightByWalk order) cursor.current.position
        return (.negate operand, left)
      else notePrimary budget cursor

/-- Reads a literal, a field, a call or a group, as `readPrimary` does. -/
def notePrimary : (budget : Nat) → NotedReading Expr
  | 0, _ => .silent (.error .exhausted)
  | budget + 1, cursor =>
      match cursor.current.kind with
      | .number value => return (.literal (.number value), cursor.advance)
      | .text content => return (.literal (.text content), cursor.advance)
      | .identifier name =>
          if cursor.advance.current.kind = .leftParen then
            noteCall budget name cursor.current.position cursor.advance
          else return (.field name, cursor.advance)
      | .leftParen => do
          let entered ← .silent (cursor.advance.enter limit cursor.current.position)
          let (expr, next) ← noteExpression budget entered
          let left ← .silent next.leave
          let closed ← .silent (left.expectRightParen cursor.current.position)
          return (expr, closed)
      | .endOfText =>
          .silent (.error (.fault (Fault.missingOperand.error cursor.current.position)))
      | kind =>
          .silent (.error (.fault ((Fault.operandExpected kind).error cursor.current.position)))

/-- Reads the arguments of a call, as `readCall` does. -/
def noteCall : (budget : Nat) → String → (position : Nat) → NotedReading Expr
  | 0, _, _, _ => .silent (.error .exhausted)
  | budget + 1, function, position, cursor => do
      let entered ← .silent (cursor.advance.enter limit position)
      let (arguments, next) ←
        if entered.current.kind = .rightParen then .silent (.ok ([], entered))
        else
          noteArguments function (fun cursor => noteExpression budget cursor)
            entered.tokens.length [] entered
      let left ← .silent next.leave
      let closed ← .silent (left.expectRightParen cursor.current.position)
      checkNode limit (.call function arguments) (1 + greatestByWalk order arguments) position
      return (.call function arguments, closed)

end

/-- Reads tokens as one whole expression, as `descend` does. -/
def noteDescent (budget : Nat) (tokens : List Token) : Noted Expr := do
  let cursor : Cursor := ⟨withEnd tokens, 0⟩
  if cursor.current.kind = .endOfText then
    .silent (.error (.fault (Fault.emptyExpression.error cursor.current.position)))
  else
    let (expr, rest) ← noteExpression order limit budget cursor
    match rest.current.kind with
    | .endOfText => return expr
    | .rightParen =>
        .silent (.error (.fault (Fault.surplusRightParen.error rest.current.position)))
    | kind => .silent (.error (.fault ((Fault.surplusToken kind).error rest.current.position)))

end Descent

/-! ## What the notes tell -/

/-- A computation ends as the one without notes, its notes are exact, and it checks the nodes by
which the result goes beyond those that were built before. -/
structure Accounts {Result : Type} (built : List Expr) (nodes : Result → List Expr)
    (noted : Noted Result) (plain : Except Halt Result) : Prop where
  outcome_eq : noted.outcome = plain
  exact : ∀ note ∈ noted.notes, note.Exact
  checked : ∀ result, plain = .ok result → built ++ noted.checked = nodes result

namespace Accounts

variable {First Result : Type} {built : List Expr}

theorem ofError {nodes : Result → List Expr} (halt : Halt) :
    Accounts built nodes (.silent (.error halt)) (.error halt) :=
  ⟨rfl, by simp [Noted.silent], nofun⟩

/-- What notes nothing builds nothing. -/
theorem silent (outcome : Except Halt Result) :
    Accounts built (fun _ => built) (.silent outcome) outcome :=
  ⟨rfl, by simp [Noted.silent], fun _ _ => List.append_nil built⟩

theorem done {nodes : Result → List Expr} {value : Result} (built_eq : built = nodes value) :
    Accounts built nodes (return value) (.ok value) where
  outcome_eq := rfl
  exact := by simp [pure]
  checked := by
    rintro _ ⟨⟩
    exact (List.append_nil built).trans built_eq

theorem bind {between : First → List Expr} {nodes : Result → List Expr} {first : Noted First}
    {plain : Except Halt First} {next : First → Noted Result}
    {plainNext : First → Except Halt Result} (accounts : Accounts built between first plain)
    (goes_on : ∀ value, Accounts (between value) nodes (next value) (plainNext value)) :
    Accounts built nodes (first >>= next) (plain >>= plainNext) := by
  obtain ⟨rfl, exact, checked⟩ := accounts
  obtain ⟨notes, outcome⟩ := first
  cases outcome with
  | error halt => exact ⟨rfl, exact, nofun⟩
  | ok value =>
      refine ⟨(goes_on value).outcome_eq, ?_, fun result ok => ?_⟩
      · exact List.forall_mem_append.2 ⟨exact, (goes_on value).exact⟩
      · rw [← (goes_on value).checked result ok, ← checked value rfl, List.append_assoc]
        exact congrArg (built ++ ·) List.filterMap_append

/-- The note in front of a round has no counterpart without notes. -/
theorem round {left : Expr} {height : Nat} (exact : height = left.height)
    {nodes : Result → List Expr} {noted : Noted Result} {plain : Except Halt Result}
    (accounts : Accounts built nodes noted plain) :
    Accounts built nodes (do .write (.round left height); noted) plain where
  outcome_eq := accounts.outcome_eq
  exact := List.forall_mem_cons.2 ⟨exact, accounts.exact⟩
  checked := accounts.checked

theorem checkNode {node : Expr} {height : Nat} (exact : height = node.height)
    (limit position : Nat) :
    Accounts built (fun _ => built ++ [node]) (checkNode limit node height position)
      (checkHeight limit height position) :=
  ⟨rfl, List.forall_mem_singleton.2 exact, fun _ _ => rfl⟩

end Accounts

/-- A function of the descent with its notes does what the one without them does, and checks the
nodes of what it reads. -/
def Faithful (noted : NotedReading Expr) (plain : Reading Expr) : Prop :=
  ∀ built cursor, Accounts built (fun read => built ++ read.1.innerNodes) (noted cursor)
    (plain cursor)

variable (order : Expr.WalkOrder) (limit : Nat)

/-- The height that runs along is that of the left operand in front of the loop, and it stays so:
each round builds a node on that operand and goes on with the height of the node. -/
theorem noteOperations_accounts (least : Nat) {operand : Nat → NotedReading Expr}
    {plain : Nat → Reading Expr} (faithful : ∀ tighter, Faithful (operand tighter) (plain tighter))
    (built : List Expr) :
    ∀ (rounds : Nat) (left : Expr) {height : Nat} (cursor : Cursor), height = left.height →
      Accounts (built ++ left.innerNodes) (fun read => built ++ read.1.innerNodes)
        (noteOperations order limit least operand rounds left height cursor)
        (readOperations limit least plain rounds left height cursor)
  | 0, _, _, _, _ => .ofError _
  | rounds + 1, left, height, cursor, exact => by
      rw [noteOperations, readOperations]
      refine .round exact ?_
      cases binaryOp? cursor.current.kind with
      | none => exact .done rfl
      | some op =>
          dsimp only
          split
          · exact .done rfl
          · refine (faithful _ _ _).bind fun (right, next) => ?_
            -- The height that is checked is that of the node, and the node is the left operand of
            -- the next round.
            have above : 1 + max height (right.heightByWalk order) =
                (Expr.binary op left right).height := by
              rw [Expr.heightByWalk_eq_height, exact, Expr.height]
            rw [Expr.heightByWalk_eq_height] at above ⊢
            refine (Accounts.checkNode above limit _).bind fun _ => ?_
            have rest := noteOperations_accounts least faithful built rounds
              (.binary op left right) next above
            rw [Expr.innerNodes] at rest
            simpa only [List.append_assoc] using rest

theorem noteArguments_accounts (function : String) {argument : NotedReading Expr}
    {plain : Reading Expr} (faithful : Faithful argument plain) (built : List Expr) :
    ∀ (rounds : Nat) (given : List Expr) (cursor : Cursor),
      Accounts (built ++ Expr.allInnerNodes given)
        (fun read => built ++ Expr.allInnerNodes read.1)
        (noteArguments function argument rounds given cursor)
        (readArguments function plain rounds given cursor)
  | 0, _, _ => .ofError _
  | rounds + 1, given, cursor => by
      rw [noteArguments, readArguments]
      refine (faithful _ _).bind fun (expr, next) => ?_
      rw [List.append_assoc, ← Expr.allInnerNodes_append_singleton]
      dsimp only
      by_cases more : next.current.kind = .comma
      · rw [if_pos more, if_pos more]
        split
        · exact .ofError _
        · exact noteArguments_accounts function faithful built rounds _ _
      · rw [if_neg more, if_neg more]
        exact .done rfl

theorem greatestByWalk_eq_maxHeight (exprs : List Expr) :
    greatestByWalk order exprs = Expr.maxHeight exprs := by
  induction exprs with
  | nil => rfl
  | cons expr rest induction =>
      rw [Expr.maxHeight, ← induction, ← Expr.heightByWalk_eq_height order]
      rfl

/-- Behind its arguments a call is closed and checked. -/
theorem callEnd_accounts (function : String) (position opening : Nat) (built arguments : List Expr)
    (next : Cursor) :
    Accounts (built ++ Expr.allInnerNodes arguments)
      (fun read : Expr × Cursor => built ++ read.1.innerNodes)
      (do
        let left ← .silent next.leave
        let closed ← .silent (left.expectRightParen opening)
        checkNode limit (.call function arguments) (1 + greatestByWalk order arguments) position
        return (Expr.call function arguments, closed))
      (do
        let left ← next.leave
        let closed ← left.expectRightParen opening
        checkHeight limit (1 + Expr.maxHeight arguments) position
        return (Expr.call function arguments, closed)) := by
  refine (Accounts.silent _).bind fun left => ?_
  refine (Accounts.silent _).bind fun closed => ?_
  rw [greatestByWalk_eq_maxHeight]
  refine (Accounts.checkNode rfl limit _).bind fun _ => ?_
  exact .done (by rw [Expr.innerNodes, List.append_assoc])

/-- Where nothing is built, nothing is noted. -/
theorem Accounts.leaf {built : List Expr} {leaf : Expr} (no_node : leaf.innerNodes = [])
    (cursor : Cursor) :
    Accounts built (fun read => built ++ read.1.innerNodes) (return (leaf, cursor))
      (.ok (leaf, cursor)) :=
  .done (by rw [no_node, List.append_nil])

mutual

theorem noteExpression_faithful : ∀ budget : Nat,
    Faithful (noteExpression order limit budget) (readExpression limit budget)
  | 0, _, _ => by
      rw [noteExpression, readExpression]
      exact .ofError _
  | budget + 1, built, cursor => by
      rw [noteExpression, readExpression]
      exact noteBinary_faithful budget 0 built cursor

theorem noteBinary_faithful : ∀ budget least : Nat,
    Faithful (noteBinary order limit budget least) (readBinary limit budget least)
  | 0, _, _, _ => by
      rw [noteBinary, readBinary]
      exact .ofError _
  | budget + 1, least, built, cursor => by
      rw [noteBinary, readBinary]
      refine (noteUnary_faithful budget built cursor).bind fun (left, next) => ?_
      dsimp only
      rw [Expr.heightByWalk_eq_height]
      exact noteOperations_accounts order limit least
        (fun tighter => noteBinary_faithful budget tighter) built next.tokens.length left next rfl

theorem noteUnary_faithful : ∀ budget : Nat,
    Faithful (noteUnary order limit budget) (readUnary limit budget)
  | 0, _, _ => by
      rw [noteUnary, readUnary]
      exact .ofError _
  | budget + 1, built, cursor => by
      rw [noteUnary, readUnary]
      split
      · refine (Accounts.silent _).bind fun entered => ?_
        refine (noteUnary_faithful budget built entered).bind fun (operand, next) => ?_
        refine (Accounts.silent _).bind fun left => ?_
        rw [Expr.heightByWalk_eq_height]
        refine (Accounts.checkNode rfl limit _).bind fun _ => ?_
        exact .done (by rw [Expr.innerNodes, List.append_assoc])
      · exact notePrimary_faithful budget built cursor

theorem notePrimary_faithful : ∀ budget : Nat,
    Faithful (notePrimary order limit budget) (readPrimary limit budget)
  | 0, _, _ => by
      rw [notePrimary, readPrimary]
      exact .ofError _
  | budget + 1, built, cursor => by
      rw [notePrimary, readPrimary]
      cases cursor.current.kind with
      | number | text => exact .leaf rfl _
      | identifier name =>
          dsimp only
          split
          · exact noteCall_faithful budget name _ built _
          · exact .leaf rfl _
      | leftParen =>
          refine (Accounts.silent _).bind fun entered => ?_
          refine (noteExpression_faithful budget built entered).bind fun (expr, next) => ?_
          refine (Accounts.silent _).bind fun left => ?_
          refine (Accounts.silent _).bind fun closed => ?_
          exact .done rfl
      | _ => exact .ofError _

theorem noteCall_faithful : ∀ (budget : Nat) (function : String) (position : Nat),
    Faithful (noteCall order limit budget function position)
      (readCall limit budget function position)
  | 0, _, _, _, _ => by
      rw [noteCall, readCall]
      exact .ofError _
  | budget + 1, function, position, built, cursor => by
      rw [noteCall, readCall]
      refine (Accounts.silent _).bind fun entered => ?_
      dsimp only
      by_cases empty : entered.current.kind = .rightParen
      · rw [if_pos empty, if_pos empty]
        have arguments : Accounts built (fun read => built ++ Expr.allInnerNodes read.1)
            (.silent (.ok ([], entered))) (.ok ([], entered)) :=
          .done (List.append_nil built).symm
        exact arguments.bind fun (arguments, next) =>
          callEnd_accounts order limit function position _ built arguments next
      · rw [if_neg empty, if_neg empty]
        have arguments := noteArguments_accounts function (noteExpression_faithful budget) built
          entered.tokens.length [] entered
        rw [Expr.allInnerNodes, List.append_nil] at arguments
        exact arguments.bind fun (arguments, next) =>
          callEnd_accounts order limit function position _ built arguments next

end

/-- A whole text is read as without notes, and the nodes of what is read are checked. -/
theorem noteDescent_accounts (budget : Nat) (tokens : List Token) :
    Accounts [] Expr.innerNodes (noteDescent order limit budget tokens)
      (descend limit budget tokens) := by
  rw [noteDescent, descend]
  dsimp only
  split
  · exact .ofError _
  · refine (noteExpression_faithful order limit budget [] _).bind fun (expr, rest) => ?_
    cases rest.current.kind with
    | endOfText => exact .done rfl
    | _ => exact .ofError _

end Parser
end FormRules
