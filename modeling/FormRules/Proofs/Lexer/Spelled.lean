import FormRules.Proofs.Grammar.Phrase
import FormRules.Proofs.Lexer.Spelling

/-!
# Words from their spelling

The texts that the canonical form of an expression writes for names, quoted texts, numbers and
operators are passed over as the words that they stand for, in front of what the form puts behind
them.
-/

namespace FormRules

namespace Quoted

/-- The escaped form of any content is a body for it. -/
theorem spells_escape (content : List Char) : Spells '"' (escape content) content := by
  induction content with
  | nil => exact .nothing
  | cons head tail induction =>
      rw [escape]
      split
      case isTrue special => exact .escaped special induction
      case isFalse ordinary =>
        obtain ⟨no_quote, no_backslash⟩ := not_or.1 ordinary
        exact .plain no_quote no_backslash induction

end Quoted

namespace Lexer

variable {before : Bool} {rest : List Char}

/-- A spelling is passed over as its word. -/
theorem passes_of_spells {spelling : List Char} {kind : TokenKind} (spells : Spells spelling kind)
    (longest : Longest before spelling kind rest)
    (no_point : isNumber kind = true → rest.head? ≠ some '.') :
    Passes before (spelling ++ rest) [kind] kind.endsOperand rest := by
  obtain ⟨head, tail, rfl, solid, -⟩ := spells.exists_head
  exact passes_of_read solid (read_of_spells spells longest no_point rfl)

/-- What the canonical form puts behind an operand: nothing, a blank, a comma or a closing
parenthesis. -/
def Delimits (rest : List Char) : Prop :=
  ∀ head ∈ rest.head?, head = ' ' ∨ head = ',' ∨ head = ')'

theorem passes_name {name : String} (named : Lexeme.isName name = true)
    (ends : ∀ head ∈ rest.head?, Lexeme.continuesName head = false) :
    Passes before (name.toList ++ rest) [.identifier name] true rest :=
  passes_of_spells (.name named) (longest_name named ends) nofun

theorem passes_quote (content : String) (rest : List Char) :
    Passes before (Quoted.quote content.toList ++ rest) [.text content] true rest := by
  have spells : Spells (Quoted.quote content.toList) (.text content) := by
    have quoted := Spells.text rfl (Quoted.spells_escape content.toList)
    rwa [String.ofList_toList] at quoted
  exact passes_of_spells spells (longest_text rfl _ content) nofun

theorem passes_number {number : Number} (finite : number.isFinite = true)
    (delimits : Delimits rest) :
    Passes false (number.text ++ rest) [.number number] true rest := by
  cases number with
  | nan | infinite => exact nomatch finite
  | finite negative magnitude =>
      obtain ⟨numeral, decimal, text_eq, spells, denotes⟩ :=
        Number.exists_spells_text negative magnitude
      have ends : ∀ head ∈ rest.head?, head.isDigit = false := fun head member => by
        rcases delimits head member with rfl | rfl | rfl <;> decide
      have no_point : rest.head? ≠ some '.' := fun point => by
        simpa using delimits '.' point
      have decimal_finite : (decimal.toNumber false).isFinite = true := by rw [denotes]; rfl
      rw [text_eq]
      cases negative with
      | false =>
          have number := Spells.number spells decimal_finite
          rw [denotes] at number
          exact passes_of_spells number (longest_number spells ends _) fun _ => no_point
      | true =>
          have number := Spells.negative spells decimal_finite
          rw [denotes] at number
          exact passes_of_spells number (longest_negative numeral ends _) fun _ => no_point

/-- Behind an operand and a blank, the symbol of an operator is one word of its stratum. -/
theorem exists_passes_symbol (op : BinaryOp) :
    ∃ level word, Grammar.Joins level word op ∧ ∀ rest,
      Passes true (' ' :: (op.symbol.toList ++ ' ' :: rest)) [word] false (' ' :: rest) := by
  have spaced {word : TokenKind} (passes : ∀ rest,
      Passes true (op.symbol.toList ++ ' ' :: rest) [word] false (' ' :: rest)) (rest : List Char) :
      Passes true (' ' :: (op.symbol.toList ++ ' ' :: rest)) [word] false (' ' :: rest) :=
    (passes rest).blank rfl
  cases op with
  | add => exact ⟨_, _, .plus, spaced fun _ => passes_of_read rfl rfl⟩
  | sub => exact ⟨_, _, .minus, spaced fun _ => passes_of_read rfl rfl⟩
  | mul => exact ⟨_, _, .star, spaced fun _ => passes_of_read rfl rfl⟩
  | div => exact ⟨_, _, .slash, spaced fun _ => passes_of_read rfl rfl⟩
  | mod => exact ⟨_, _, .percent, spaced fun _ => passes_of_read rfl rfl⟩
  | eq => exact ⟨_, _, .equal, spaced fun _ => passes_of_read rfl rfl⟩
  | notEq => exact ⟨_, _, .notEqual, spaced fun _ => passes_of_read rfl rfl⟩
  | lt => exact ⟨_, _, .less, spaced fun _ => passes_of_read rfl rfl⟩
  | ltEq => exact ⟨_, _, .lessEqual, spaced fun _ => passes_of_read rfl rfl⟩
  | gt => exact ⟨_, _, .greater, spaced fun _ => passes_of_read rfl rfl⟩
  | gtEq => exact ⟨_, _, .greaterEqual, spaced fun _ => passes_of_read rfl rfl⟩

end Lexer
end FormRules
