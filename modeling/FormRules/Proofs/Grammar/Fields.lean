import FormRules.Proofs.Expr.Substitution
import FormRules.Proofs.Grammar.Language
import FormRules.Proofs.Lexer.Division

/-!
# Fields in a text

A name is that of a function if a parenthesis opens behind it and that of a field otherwise. So the
fields that an expression refers to can be read off its words without a tree: they are the names in
front of anything but an opening parenthesis, in the order of the text.
-/

namespace FormRules

namespace Grammar

/-- The names among words that no opening parenthesis follows. -/
def fieldNames : List TokenKind → List String
  | [] => []
  | .identifier name :: behind =>
      if behind.head? = some .leftParen then fieldNames behind else name :: fieldNames behind
  | _ :: behind => fieldNames behind

theorem fieldNames_name {name : String} {behind : List TokenKind}
    (no_call : behind.head? ≠ some .leftParen) :
    fieldNames (.identifier name :: behind) = name :: fieldNames behind :=
  if_neg no_call

theorem fieldNames_cons {word : TokenKind} (other : ∀ name, word ≠ .identifier name)
    (behind : List TokenKind) : fieldNames (word :: behind) = fieldNames behind := by
  cases word with
  | identifier name => exact absurd rfl (other name)
  | _ => rfl

/-- Words can be cut anywhere but in front of an opening parenthesis. -/
theorem fieldNames_append (front : List TokenKind) {behind : List TokenKind}
    (no_call : behind.head? ≠ some .leftParen) :
    fieldNames (front ++ behind) = fieldNames front ++ fieldNames behind := by
  induction front with
  | nil => rfl
  | cons word front induction =>
      cases word with
      | identifier name =>
          have next : (front ++ behind).head? = some .leftParen ↔
              front.head? = some .leftParen := by
            cases front with
            | nil => simp [no_call]
            | cons _ _ => rfl
          simp only [List.cons_append, fieldNames, next, induction]
          split <;> rfl
      | _ => exact induction

theorem mem_fieldNames {words : List TokenKind} {name : String} :
    name ∈ fieldNames words ↔ ∃ front behind, words = front ++ .identifier name :: behind ∧
      behind.head? ≠ some .leftParen := by
  constructor
  · intro member
    induction words with
    | nil => exact nomatch member
    | cons word words induction =>
        by_cases field : word = .identifier name ∧ words.head? ≠ some .leftParen
        · exact ⟨[], words, by rw [field.1, List.nil_append], field.2⟩
        · have behind : name ∈ fieldNames words := by
            cases word with
            | identifier other =>
                rw [fieldNames] at member
                split at member
                · exact member
                · next no_call =>
                    rcases List.mem_cons.1 member with rfl | behind
                    · exact absurd ⟨rfl, no_call⟩ field
                    · exact behind
            | _ => exact member
          obtain ⟨front, rest, rfl, no_call⟩ := induction behind
          exact ⟨word :: front, rest, rfl, no_call⟩
  · rintro ⟨front, behind, rfl, no_call⟩
    rw [fieldNames_append front (by simp), fieldNames_name no_call]
    exact List.mem_append_right _ List.mem_cons_self

theorem Joins.ne_identifier {level : Level} {token : TokenKind} {op : BinaryOp}
    (joins : Joins level token op) (name : String) : token ≠ .identifier name := by
  cases joins <;> exact nofun

theorem fieldNames_parenthesize (words : List TokenKind) :
    fieldNames (.leftParen :: words ++ [.rightParen]) = fieldNames words := by
  rw [List.cons_append, fieldNames_cons (by simp), fieldNames_append words (by simp)]
  exact List.append_nil _

mutual

/-- The fields of an expression are those of its words. -/
theorem Phrase.fieldNames_eq : ∀ {level : Level} (phrase : Phrase level),
    phrase.expr.fieldNames = fieldNames phrase.tokens
  | _, .join token op joins left right => by
      have no_call : (token :: right.tokens).head? ≠ some .leftParen :=
        fun same => joins.ne_leftParen (Option.some.inj same)
      rw [Phrase.expr, Phrase.tokens, Expr.fieldNames, fieldNames_append _ no_call,
        fieldNames_cons joins.ne_identifier, left.fieldNames_eq, right.fieldNames_eq]
  | _, .lift _ inner => inner.fieldNames_eq
  | _, .negation operand => operand.fieldNames_eq
  | _, .number _ => rfl
  | _, .text _ => rfl
  | _, .field _ => rfl
  | _, .emptyCall _ => rfl
  | _, .call function arguments => by
      rw [Phrase.expr, Phrase.tokens, Expr.fieldNames, arguments.fieldNames_eq]
      exact (fieldNames_parenthesize _).symm
  | _, .group inner => by
      rw [Phrase.expr, Phrase.tokens, fieldNames_parenthesize, inner.fieldNames_eq]

theorem Arguments.fieldNames_eq : ∀ arguments : Arguments,
    Expr.allFieldNames arguments.exprs = fieldNames arguments.tokens
  | .last argument => by
      rw [Arguments.exprs, Arguments.tokens, Expr.allFieldNames, argument.fieldNames_eq]
      exact List.append_nil _
  | .more argument rest => by
      rw [Arguments.exprs, Arguments.tokens, Expr.allFieldNames, argument.fieldNames_eq,
        rest.fieldNames_eq, fieldNames_append _ (by simp), fieldNames_cons (by simp)]

end

end Grammar

namespace CompiledExpression

open Grammar

/-- The fields of a compiled expression are those of the tokens of its text, in their order. -/
theorem exists_list_of_compiles {limits : Limits} {source : String}
    {compiled : CompiledExpression}
    (compiles : CompiledExpression.ofSource limits source = .ok compiled) :
    ∃ tokens, Token.list source = .ok tokens ∧
      compiled.expr.fieldNames = fieldNames (tokens.map Token.kind) := by
  obtain ⟨-, read, -⟩ := CompiledExpression.ofSource_eq_ok_iff.1 compiles
  obtain ⟨tokens, listed, parsed⟩ := Expr.ofSource_eq_ok_iff.1 read
  obtain ⟨phrase, words_eq, expr_eq⟩ := Parser.derives_of_ofTokens parsed
  obtain ⟨pieces, divides, rfl⟩ := Lexer.exists_divides_of_list listed
  obtain ⟨words, tokens_eq, -, inner⟩ := (Lexer.places_of_divides divides).closed
  refine ⟨_, listed, ?_⟩
  rw [tokens_eq, Parser.wordsOf_append_of_end (by simpa using inner) rfl] at words_eq
  rw [← expr_eq, phrase.fieldNames_eq, words_eq, tokens_eq, List.map_append,
    fieldNames_append _ (by simp)]
  exact (List.append_nil _).symm

/-- A compiled expression requires exactly the fields that its text names: the names among the
tokens that no opening parenthesis follows. -/
theorem mem_requiredFields_iff_named {limits : Limits} {source : String}
    {compiled : CompiledExpression}
    (compiles : CompiledExpression.ofSource limits source = .ok compiled) :
    ∃ tokens, Token.list source = .ok tokens ∧
      ∀ name, name ∈ compiled.requiredFields ↔
        ∃ front token behind, tokens = front ++ token :: behind ∧
          token.kind = .identifier name ∧ ∀ next ∈ behind.head?, next.kind ≠ .leftParen := by
  obtain ⟨tokens, listed, names_eq⟩ := exists_list_of_compiles compiles
  obtain ⟨-, -, compiled_eq⟩ := CompiledExpression.ofSource_eq_ok_iff.1 compiles
  have required : compiled.requiredFields = compiled.expr.referencedFields := by
    rw [compiled_eq]
  refine ⟨tokens, listed, fun name => ?_⟩
  rw [required, Expr.mem_referencedFields, names_eq, mem_fieldNames]
  constructor
  · rintro ⟨front, behind, kinds_eq, no_call⟩
    obtain ⟨front, rest, rfl, rfl, rest_eq⟩ := List.map_eq_append_iff.1 kinds_eq
    obtain ⟨token, behind, rfl, named, rfl⟩ := List.map_eq_cons_iff.1 rest_eq
    refine ⟨front, token, behind, rfl, named, fun next follows opens => no_call ?_⟩
    rw [List.head?_map, Option.mem_def.1 follows, Option.map_some, opens]
  · rintro ⟨front, token, behind, rfl, named, no_call⟩
    refine ⟨front.map Token.kind, behind.map Token.kind, by simp [named], fun opens => ?_⟩
    rw [List.head?_map] at opens
    obtain ⟨next, follows, kind_eq⟩ := Option.map_eq_some_iff.1 opens
    exact no_call next follows kind_eq

/-- A name in front of a comma is a field, also where a function has the same name. -/
theorem mem_requiredFields_iff_named_shared :
    let source := "Max(Max, Round(-Rate))"
    let tokens : List Token := [⟨.identifier "Max", 0⟩, ⟨.leftParen, 3⟩, ⟨.identifier "Max", 4⟩,
      ⟨.comma, 7⟩, ⟨.identifier "Round", 9⟩, ⟨.leftParen, 14⟩, ⟨.minus, 15⟩,
      ⟨.identifier "Rate", 16⟩, ⟨.rightParen, 20⟩, ⟨.rightParen, 21⟩, ⟨.endOfText, 22⟩]
    ∃ compiled, CompiledExpression.ofSource .standard source = .ok compiled ∧
      Token.list source = .ok tokens ∧ "Max" ∈ compiled.requiredFields ∧
      ∀ name, name ∈ compiled.requiredFields ↔
        ∃ front token behind, tokens = front ++ token :: behind ∧
          token.kind = .identifier name ∧ ∀ next ∈ behind.head?, next.kind ≠ .leftParen := by
  intro source tokens
  have admitted : Limits.standard.Admit source := by decide +kernel
  obtain ⟨compiled, compiles⟩ := admitted
  have listed : Token.list source = .ok tokens := by decide +kernel
  obtain ⟨others, others_listed, named⟩ := mem_requiredFields_iff_named compiles
  obtain rfl := Except.ok.inj (others_listed.symm.trans listed)
  have field : "Max" ∈ compiled.requiredFields :=
    (named "Max").2 ⟨tokens.take 2, ⟨.identifier "Max", 4⟩, tokens.drop 3, rfl, rfl, by
      simp [tokens]⟩
  exact ⟨compiled, compiles, listed, field, named⟩

end CompiledExpression
end FormRules
