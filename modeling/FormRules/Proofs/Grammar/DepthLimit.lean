import FormRules.Proofs.Compilation
import FormRules.Proofs.Grammar.Language

/-!
# The depth limit

A limit rejects the expressions with more constructs open at once than it admits and those that are
higher than it admits, and nothing else. A larger limit accepts more and changes no tree.
-/

namespace FormRules.Parser

open Grammar

/-- A limit accepts what the grammar derives if it admits the open constructs and the height. -/
theorem ofTokens_eq_ok_iff_of_large {limit large : Nat} {tokens : List Token}
    (enough : (wordsOf tokens).length ≤ large) {expr : Expr} :
    Expr.ofTokens limit tokens = .ok expr ↔
      Expr.ofTokens large tokens = .ok expr ∧
        (∃ phrase : Phrase .equality, phrase.tokens = wordsOf tokens ∧ phrase.nesting ≤ limit) ∧
        expr.height ≤ max limit 1 := by
  constructor
  · intro accepted
    obtain ⟨phrase, tokens_eq, expr_eq, nested, height_le⟩ := ofTokens_eq_ok_iff.1 accepted
    exact ⟨ofTokens_of_derives enough ⟨phrase, tokens_eq, expr_eq⟩, ⟨phrase, tokens_eq, nested⟩,
      height_le⟩
  · rintro ⟨accepted, ⟨phrase, tokens_eq, nested⟩, height_le⟩
    obtain ⟨derived, derived_eq, rfl⟩ := derives_of_ofTokens accepted
    obtain rfl := Phrase.eq_of_tokens (tokens_eq.trans derived_eq.symm)
    exact ofTokens_of_phrase phrase tokens_eq nested height_le

theorem ofTokens_mono {limit larger : Nat} (le : limit ≤ larger) {tokens : List Token}
    {expr : Expr} (accepted : Expr.ofTokens limit tokens = .ok expr) :
    Expr.ofTokens larger tokens = .ok expr := by
  obtain ⟨phrase, tokens_eq, rfl, nested, height_le⟩ := ofTokens_eq_ok_iff.1 accepted
  exact ofTokens_of_phrase phrase tokens_eq (Nat.le_trans nested le) (by omega)

/-- The counter of the descent never falls below zero, whatever the budget. -/
theorem descend_ne_underflow (limit budget : Nat) (tokens : List Token) :
    descend limit budget tokens ≠ .error .underflow := by
  rcases descend_outcome limit budget tokens with
    ⟨descended, -⟩ | ⟨error, descended, -⟩ | ⟨phrase, descended, -⟩ <;>
  · rw [descended]
    exact nofun

theorem height_le_of_ofSource {limits : Limits} {source : String} {compiled : CompiledExpression}
    (accepted : CompiledExpression.ofSource limits source = .ok compiled) :
    compiled.expr.height ≤ max limits.maxDepth 1 := by
  obtain ⟨-, read, -⟩ := CompiledExpression.ofSource_eq_ok_iff.1 accepted
  obtain ⟨tokens, -, parsed⟩ := Expr.ofSource_eq_ok_iff.1 read
  obtain ⟨_, _, _, _, height_le⟩ := ofTokens_eq_ok_iff.1 parsed
  exact height_le

/-- The limit is exact: it accepts what a limit that cannot interfere accepts, as far as it admits
the open constructs and the height of the tree. So a larger limit keeps every tree, the counter of
open constructs is never lowered below zero, and no compiled tree is higher than the limit. -/
theorem ofTokens_limit_exact (limit : Nat) (tokens : List Token) :
    (∀ large expr, (wordsOf tokens).length ≤ large →
      (Expr.ofTokens limit tokens = .ok expr ↔
        Expr.ofTokens large tokens = .ok expr ∧
          (∃ phrase : Phrase .equality, phrase.tokens = wordsOf tokens ∧ phrase.nesting ≤ limit) ∧
          expr.height ≤ max limit 1)) ∧
    (∀ larger expr, limit ≤ larger → Expr.ofTokens limit tokens = .ok expr →
      Expr.ofTokens larger tokens = .ok expr) ∧
    (∀ budget, descend limit budget tokens ≠ .error .underflow) ∧
    (∃ enough, ∀ budget, enough ≤ budget →
      descend limit budget tokens = (Expr.ofTokens limit tokens).mapError .fault) ∧
    (∀ length source compiled, CompiledExpression.ofSource ⟨length, limit⟩ source = .ok compiled →
      compiled.expr.height ≤ max limit 1) := by
  refine ⟨?_, ?_, ?_, ?_, ?_⟩
  · intro large expr enough
    exact ofTokens_eq_ok_iff_of_large enough
  · intro larger expr le accepted
    exact ofTokens_mono le accepted
  · intro budget
    exact descend_ne_underflow limit budget tokens
  · exact ⟨9 * (limit + 1), fun budget enough => descend_eq_of_budget enough tokens⟩
  · intro length source compiled accepted
    exact height_le_of_ofSource accepted

/-- A minus sign in front of a field in parentheses has two constructs open at once and the height
two, so a limit of two admits it. -/
theorem ofTokens_negated_group :
    let words : List TokenKind := [.minus, .leftParen, .identifier "a", .rightParen]
    let tokens : List Token := words.map (⟨·, 0⟩)
    (wordsOf tokens).length ≤ 4 ∧ Expr.ofTokens 4 tokens = .ok (.negate (.field "a")) ∧
      Expr.ofTokens 2 tokens = .ok (.negate (.field "a")) := by
  intro words tokens
  have enough : (wordsOf tokens).length ≤ 4 := by decide
  let leaf : Phrase .primary := .group (.lift (by decide) (.lift (by decide) (.lift (by decide)
    (.lift (by decide) (.lift (by decide) (.field "a"))))))
  let phrase : Phrase .equality := .lift (by decide) (.lift (by decide) (.lift (by decide)
    (.lift (by decide) (.negation (.lift (by decide) leaf)))))
  have large : Expr.ofTokens 4 tokens = .ok (.negate (.field "a")) := rfl
  have exact_at_two := (ofTokens_limit_exact 2 tokens).1 4 (.negate (.field "a")) enough
  exact ⟨enough, large, exact_at_two.2 ⟨large, ⟨phrase, rfl, by decide⟩, by decide⟩⟩

end FormRules.Parser
