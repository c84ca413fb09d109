import FormRules.Proofs.Parser.Agreement

/-!
# What the reader accepts

Under a limit, the reader accepts the texts whose words derive an expression with no more open
constructs and no greater height than the limit admits, and it answers with that expression.
-/

namespace FormRules.Parser

open Grammar

/-- The descent comes to what the reader comes to, unless it gives up. -/
theorem descend_exhausted_or_eq (limit budget : Nat) (tokens : List Token) :
    (descend limit budget tokens = .error .exhausted ∧ budget < 9 * (limit + 1)) ∨
      descend limit budget tokens = (Expr.ofTokens limit tokens).mapError .fault := by
  rcases descend_outcome limit budget tokens with
    short | ⟨error, descended, read⟩ | ⟨phrase, descended, read, -⟩
  · exact .inl short
  · rw [descended, read]
    exact .inr rfl
  · rw [descended, read]
    exact .inr rfl

theorem descend_eq_of_budget {limit budget : Nat} (enough : 9 * (limit + 1) ≤ budget)
    (tokens : List Token) :
    descend limit budget tokens = (Expr.ofTokens limit tokens).mapError .fault :=
  (descend_exhausted_or_eq limit budget tokens).resolve_left fun short =>
    Nat.not_lt_of_le enough short.2

/-- Tokens divide into those of their words and a rest that is over or begins with the end of the
text. -/
theorem exists_words (tokens : List Token) :
    ∃ used rest, tokens = used ++ rest ∧ used.map Token.kind = wordsOf tokens ∧
      ∀ token ∈ rest.head?, token.kind = .endOfText := by
  induction tokens with
  | nil => exact ⟨[], [], rfl, rfl, by simp⟩
  | cons token tokens induction =>
      by_cases last : token.kind = .endOfText
      · exact ⟨[], token :: tokens, rfl, (wordsOf_cons_of_end last tokens).symm,
          by simpa using last⟩
      · obtain ⟨used, rest, rfl, words_eq, ends⟩ := induction
        refine ⟨token :: used, rest, rfl, ?_, ends⟩
        rw [List.map_cons, words_eq, wordsOf_cons last]

/-- The words of a phrase that the limit admits are read. -/
theorem ofTokens_of_phrase {limit : Nat} {tokens : List Token} (phrase : Phrase .equality)
    (words_eq : phrase.tokens = wordsOf tokens) (nested : phrase.nesting ≤ limit)
    (height_le : phrase.expr.height ≤ max limit 1) :
    Expr.ofTokens limit tokens = .ok phrase.expr := by
  obtain ⟨used, rest, tokens_eq, used_kinds, ends⟩ := exists_words tokens
  rw [Expr.ofTokens]
  generalize endPosition tokens = finalPosition
  subst tokens_eq
  have unbound : nextBound rest ≤ Level.equality.rank := by
    cases rest with
    | nil => exact Nat.zero_le _
    | cons token rest => exact nextBound_cons_le_of_none (by rw [ends token rfl]; rfl) rest
  have not_call : ∀ token ∈ rest.head?, token.kind ≠ .leftParen := by
    intro token head
    simp [ends token head]
  rw [State.initial, run_phrase phrase [] rest (used_kinds.trans words_eq.symm)
    (fun _ => trivial) (by rw [depth_nil]; omega) height_le unbound not_call]
  cases rest with
  | nil => rfl
  | cons token rest =>
      rw [run, if_pos (ends token rfl)]
      rfl

/-- A text is read as an expression exactly if its words derive it within the limit. -/
theorem ofTokens_eq_ok_iff {limit : Nat} {tokens : List Token} {expr : Expr} :
    Expr.ofTokens limit tokens = .ok expr ↔
      ∃ phrase : Phrase .equality, phrase.tokens = wordsOf tokens ∧ phrase.expr = expr ∧
        phrase.nesting ≤ limit ∧ expr.height ≤ max limit 1 := by
  constructor
  · intro accepted
    rcases descend_outcome limit (9 * (limit + 1)) tokens with
      ⟨-, short⟩ | ⟨error, -, read⟩ | ⟨phrase, -, read, words_eq, nested, height_le⟩
    · exact absurd short (Nat.lt_irrefl _)
    · rw [accepted] at read
      exact nomatch read
    · obtain rfl := Except.ok.inj (accepted.symm.trans read)
      exact ⟨phrase, words_eq, rfl, nested, height_le⟩
  · rintro ⟨phrase, words_eq, rfl, nested, height_le⟩
    exact ofTokens_of_phrase phrase words_eq nested height_le

end FormRules.Parser
