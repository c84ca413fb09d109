import FormRules.Expr
import FormRules.Token

/-!
# The grammar of expressions

The strata of the expression language, each looser one made of the next tighter one, with all
binary operators to the left. A phrase is a derivation in this grammar: it has the tokens that it
derives and the expression that it stands for.
-/

namespace FormRules.Grammar

/-- The strata of the grammar, from the loosest to the tightest. -/
inductive Level where
  | equality
  | order
  | sum
  | product
  | unary
  | primary
deriving DecidableEq

namespace Level

/-- The next tighter stratum. -/
def next : Level → Level
  | equality => order
  | order => sum
  | sum => product
  | product => unary
  | unary => primary
  | primary => primary

/-- The place of a stratum, counted from the loosest. -/
def rank : Level → Nat
  | equality => 1
  | order => 2
  | sum => 3
  | product => 4
  | unary => 5
  | primary => 6

theorem rank_pos (level : Level) : 0 < level.rank := by
  cases level <;> decide

theorem rank_le_next (level : Level) : level.rank ≤ level.next.rank := by
  cases level <;> decide

theorem rank_next {level : Level} (loose : level ≠ .primary) :
    level.next.rank = level.rank + 1 := by
  cases level <;> first | rfl | contradiction

end Level

/-- A token is an operator of a stratum: it joins a phrase of the stratum to one of the next. -/
inductive Joins : Level → TokenKind → BinaryOp → Prop where
  | equal : Joins .equality .equal .eq
  | notEqual : Joins .equality .notEqual .notEq
  | less : Joins .order .less .lt
  | lessEqual : Joins .order .lessEqual .ltEq
  | greater : Joins .order .greater .gt
  | greaterEqual : Joins .order .greaterEqual .gtEq
  | plus : Joins .sum .plus .add
  | minus : Joins .sum .minus .sub
  | star : Joins .product .star .mul
  | slash : Joins .product .slash .div
  | percent : Joins .product .percent .mod

namespace Joins

theorem rank_eq {level : Level} {token : TokenKind} {op : BinaryOp}
    (joins : Joins level token op) : level.rank = op.precedence := by
  cases joins <;> rfl

theorem loose {level : Level} {token : TokenKind} {op : BinaryOp}
    (joins : Joins level token op) : level ≠ .primary := by
  cases joins <;> decide

theorem rank_lt_unary {level : Level} {token : TokenKind} {op : BinaryOp}
    (joins : Joins level token op) : level.rank < Level.unary.rank := by
  cases joins <;> decide

theorem ne_leftParen {level : Level} {token : TokenKind} {op : BinaryOp}
    (joins : Joins level token op) : token ≠ .leftParen := by
  cases joins <;> decide

theorem ne_endOfText {level : Level} {token : TokenKind} {op : BinaryOp}
    (joins : Joins level token op) : token ≠ .endOfText := by
  cases joins <;> decide

/-- A token is an operator of one stratum only, and spells one operation only. -/
theorem unique {level other : Level} {token : TokenKind} {op otherOp : BinaryOp}
    (joins : Joins level token op) (joins' : Joins other token otherOp) :
    level = other ∧ op = otherOp := by
  cases joins <;> cases joins' <;> exact ⟨rfl, rfl⟩

end Joins

mutual

/-- A derivation from a stratum. -/
inductive Phrase : Level → Type where
  | join {level : Level} (token : TokenKind) (op : BinaryOp) (joins : Joins level token op)
      (left : Phrase level) (right : Phrase level.next) : Phrase level
  /-- A phrase of the next stratum by itself. -/
  | lift {level : Level} (loose : level ≠ .primary) (inner : Phrase level.next) : Phrase level
  | negation (operand : Phrase .unary) : Phrase .unary
  | number (value : Number) : Phrase .primary
  | text (content : String) : Phrase .primary
  | field (name : String) : Phrase .primary
  | emptyCall (function : String) : Phrase .primary
  | call (function : String) (arguments : Arguments) : Phrase .primary
  | group (inner : Phrase .equality) : Phrase .primary

/-- A derivation of one or more arguments with commas between them. -/
inductive Arguments : Type where
  | last (argument : Phrase .equality)
  | more (argument : Phrase .equality) (rest : Arguments)

end

mutual

/-- The tokens that a phrase derives. -/
def Phrase.tokens : {level : Level} → Phrase level → List TokenKind
  | _, .join token _ _ left right => left.tokens ++ token :: right.tokens
  | _, .lift _ inner => inner.tokens
  | _, .negation operand => .minus :: operand.tokens
  | _, .number value => [.number value]
  | _, .text content => [.text content]
  | _, .field name => [.identifier name]
  | _, .emptyCall function => [.identifier function, .leftParen, .rightParen]
  | _, .call function arguments =>
      .identifier function :: .leftParen :: arguments.tokens ++ [.rightParen]
  | _, .group inner => .leftParen :: inner.tokens ++ [.rightParen]

/-- The tokens that some arguments derive. -/
def Arguments.tokens : Arguments → List TokenKind
  | .last argument => argument.tokens
  | .more argument rest => argument.tokens ++ .comma :: rest.tokens

end

mutual

/-- The expression that a phrase stands for. -/
def Phrase.expr : {level : Level} → Phrase level → Expr
  | _, .join _ op _ left right => .binary op left.expr right.expr
  | _, .lift _ inner => inner.expr
  | _, .negation operand => .negate operand.expr
  | _, .number value => .literal (.number value)
  | _, .text content => .literal (.text content)
  | _, .field name => .field name
  | _, .emptyCall function => .call function []
  | _, .call function arguments => .call function arguments.exprs
  | _, .group inner => inner.expr

/-- The expressions that some arguments stand for. -/
def Arguments.exprs : Arguments → List Expr
  | .last argument => [argument.expr]
  | .more argument rest => argument.expr :: rest.exprs

end

mutual

/-- The largest number of constructs of a phrase that are open at once: groups, calls, and minus
signs in front of an operand that is not complete. -/
def Phrase.nesting : {level : Level} → Phrase level → Nat
  | _, .join _ _ _ left right => max left.nesting right.nesting
  | _, .lift _ inner => inner.nesting
  | _, .negation operand => 1 + operand.nesting
  | _, .number _ => 0
  | _, .text _ => 0
  | _, .field _ => 0
  | _, .emptyCall _ => 1
  | _, .call _ arguments => 1 + arguments.nesting
  | _, .group inner => 1 + inner.nesting

/-- The largest number of constructs of some arguments that are open at once. -/
def Arguments.nesting : Arguments → Nat
  | .last argument => argument.nesting
  | .more argument rest => max argument.nesting rest.nesting

end

/-- Some tokens derive an expression. -/
def Derives (tokens : List TokenKind) (expr : Expr) : Prop :=
  ∃ phrase : Phrase .equality, phrase.tokens = tokens ∧ phrase.expr = expr

/-- An operand may begin with a token. -/
def StartsOperand : TokenKind → Prop
  | .identifier _ | .number _ | .text _ | .minus | .leftParen => True
  | _ => False

mutual

/-- Phrases are not empty, and they begin with what may begin an operand. -/
theorem Phrase.exists_head : ∀ {level : Level} (phrase : Phrase level),
    ∃ head tail, phrase.tokens = head :: tail ∧ StartsOperand head
  | _, .join token op joins left right => by
      obtain ⟨head, tail, tokens_eq, starts⟩ := left.exists_head
      exact ⟨head, tail ++ token :: right.tokens, by rw [Phrase.tokens, tokens_eq]; rfl, starts⟩
  | _, .lift _ inner => inner.exists_head
  | _, .negation _ | _, .number _ | _, .text _ | _, .field _ | _, .emptyCall _ | _, .call _ _
  | _, .group _ => ⟨_, _, rfl, trivial⟩

theorem Arguments.exists_head : ∀ arguments : Arguments,
    ∃ head tail, arguments.tokens = head :: tail ∧ StartsOperand head
  | .last argument => argument.exists_head
  | .more argument rest => by
      obtain ⟨head, tail, tokens_eq, starts⟩ := argument.exists_head
      exact ⟨head, tail ++ .comma :: rest.tokens, by rw [Arguments.tokens, tokens_eq]; rfl, starts⟩

end

mutual

/-- The end of the text is no part of a phrase. -/
theorem Phrase.ne_endOfText : ∀ {level : Level} (phrase : Phrase level),
    ∀ kind ∈ phrase.tokens, kind ≠ .endOfText
  | _, .join token op joins left right, kind, member => by
      rcases List.mem_append.1 member with member | member
      · exact left.ne_endOfText kind member
      · rcases List.mem_cons.1 member with rfl | member
        · exact joins.ne_endOfText
        · exact right.ne_endOfText kind member
  | _, .lift _ inner, kind, member => inner.ne_endOfText kind member
  | _, .negation operand, kind, member => by
      rcases List.mem_cons.1 member with rfl | member
      · decide
      · exact operand.ne_endOfText kind member
  | _, .number _, kind, member | _, .text _, kind, member | _, .field _, kind, member => by
      obtain rfl := List.mem_singleton.1 member
      simp
  | _, .emptyCall function, kind, member => by
      simp only [Phrase.tokens, List.mem_cons, List.not_mem_nil, or_false] at member
      rcases member with rfl | rfl | rfl <;> simp
  | _, .call function arguments, kind, member => by
      simp only [Phrase.tokens, List.cons_append, List.mem_cons, List.mem_append,
        List.not_mem_nil, or_false] at member
      rcases member with rfl | rfl | member | rfl
      · simp
      · simp
      · exact arguments.ne_endOfText kind member
      · simp
  | _, .group inner, kind, member => by
      simp only [Phrase.tokens, List.cons_append, List.mem_cons, List.mem_append,
        List.not_mem_nil, or_false] at member
      rcases member with rfl | member | rfl
      · simp
      · exact inner.ne_endOfText kind member
      · simp

theorem Arguments.ne_endOfText : ∀ (arguments : Arguments),
    ∀ kind ∈ arguments.tokens, kind ≠ .endOfText
  | .last argument, kind, member => argument.ne_endOfText kind member
  | .more argument rest, kind, member => by
      rcases List.mem_append.1 member with member | member
      · exact argument.ne_endOfText kind member
      · rcases List.mem_cons.1 member with rfl | member
        · simp
        · exact rest.ne_endOfText kind member

end

/-! ## Measures of phrases -/

mutual

theorem Phrase.nesting_le_length : ∀ {level : Level} (phrase : Phrase level),
    phrase.nesting ≤ phrase.tokens.length
  | _, .join token op joins left right => by
      have := left.nesting_le_length
      have := right.nesting_le_length
      simp only [Phrase.nesting, Phrase.tokens, List.length_append, List.length_cons]
      omega
  | _, .lift _ inner => inner.nesting_le_length
  | _, .negation operand => by
      have := operand.nesting_le_length
      simp only [Phrase.nesting, Phrase.tokens, List.length_cons]
      omega
  | _, .number _ | _, .text _ | _, .field _ => Nat.zero_le _
  | _, .emptyCall _ => by simp [Phrase.nesting, Phrase.tokens]
  | _, .call _ arguments => by
      have := arguments.nesting_le_length
      simp only [Phrase.nesting, Phrase.tokens, List.length_cons, List.length_append]
      omega
  | _, .group inner => by
      have := inner.nesting_le_length
      simp only [Phrase.nesting, Phrase.tokens, List.length_cons, List.length_append]
      omega

theorem Arguments.nesting_le_length : ∀ arguments : Arguments,
    arguments.nesting ≤ arguments.tokens.length
  | .last argument => argument.nesting_le_length
  | .more argument rest => by
      have := argument.nesting_le_length
      have := rest.nesting_le_length
      simp only [Arguments.nesting, Arguments.tokens, List.length_append, List.length_cons]
      omega

end

mutual

theorem Phrase.height_le_length : ∀ {level : Level} (phrase : Phrase level),
    phrase.expr.height ≤ phrase.tokens.length
  | _, .join token op joins left right => by
      have := left.height_le_length
      have := right.height_le_length
      simp only [Phrase.expr, Expr.height, Phrase.tokens, List.length_append, List.length_cons]
      omega
  | _, .lift _ inner => inner.height_le_length
  | _, .negation operand => by
      have := operand.height_le_length
      simp only [Phrase.expr, Expr.height, Phrase.tokens, List.length_cons]
      omega
  | _, .number _ | _, .text _ | _, .field _ => by
      simp [Phrase.expr, Expr.height, Phrase.tokens]
  | _, .emptyCall _ => by simp [Phrase.expr, Expr.height, Expr.maxHeight, Phrase.tokens]
  | _, .call _ arguments => by
      have := arguments.height_le_length
      simp only [Phrase.expr, Expr.height, Phrase.tokens, List.length_cons, List.length_append]
      omega
  | _, .group inner => by
      have := inner.height_le_length
      simp only [Phrase.expr, Phrase.tokens, List.length_cons, List.length_append]
      omega

theorem Arguments.height_le_length : ∀ arguments : Arguments,
    Expr.maxHeight arguments.exprs ≤ arguments.tokens.length
  | .last argument => by
      have := argument.height_le_length
      simpa [Arguments.exprs, Expr.maxHeight, Arguments.tokens] using this
  | .more argument rest => by
      have := argument.height_le_length
      have := rest.height_le_length
      simp only [Arguments.exprs, Expr.maxHeight, Arguments.tokens, List.length_append,
        List.length_cons]
      omega

end

end FormRules.Grammar
