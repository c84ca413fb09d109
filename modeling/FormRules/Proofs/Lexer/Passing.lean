import FormRules.Proofs.Number.Text
import FormRules.Expr.Parser

/-!
# Passing over a part of a text

The lexer goes over the front of a text when it turns it into tokens and reads on behind it, told
whether an operand has just ended. Passing over two parts in turn is passing over both.
-/

namespace FormRules

namespace Token

theorem listFrom_of_blank {text : List Char} (blank : text.dropWhile Text.isBlank = [])
    (afterOperand : Bool) (position : Nat) :
    listFrom afterOperand position text =
      .ok [⟨.endOfText, position + Text.byteWidth (text.takeWhile Text.isBlank)⟩] := by
  rw [listFrom]
  split
  · rfl
  · next head tail body_eq => cases blank.symm.trans body_eq

theorem listFrom_of_read {text tail : List Char} {head : Char} {lexeme : Lexeme}
    (body_eq : text.dropWhile Text.isBlank = head :: tail) {afterOperand : Bool}
    (read : Lexeme.read afterOperand head tail = .ok lexeme) (position : Nat) :
    listFrom afterOperand position text =
      (listFrom lexeme.kind.endsOperand
        (position + Text.byteWidth (text.takeWhile Text.isBlank) +
          Text.byteWidth lexeme.spelling) lexeme.rest).map
        (⟨lexeme.kind, position + Text.byteWidth (text.takeWhile Text.isBlank)⟩ :: ·) := by
  rw [listFrom]
  split
  · next none => cases body_eq.symm.trans none
  · next head' tail' body_eq' =>
      obtain ⟨rfl, rfl⟩ := List.cons.inj (body_eq.symm.trans body_eq')
      split
      · next fault failed => cases read.symm.trans failed
      · next lexeme' read' =>
          obtain rfl := Except.ok.inj (read.symm.trans read')
          rfl

theorem listFrom_of_fault {text tail : List Char} {head : Char} {fault : LexFault}
    (body_eq : text.dropWhile Text.isBlank = head :: tail) {afterOperand : Bool}
    (read : Lexeme.read afterOperand head tail = .error fault) (position : Nat) :
    listFrom afterOperand position text =
      .error (fault.error (position + Text.byteWidth (text.takeWhile Text.isBlank))) := by
  rw [listFrom]
  split
  · next none => cases body_eq.symm.trans none
  · next head' tail' body_eq' =>
      obtain ⟨rfl, rfl⟩ := List.cons.inj (body_eq.symm.trans body_eq')
      split
      · next fault' failed =>
          obtain rfl := Except.error.inj (read.symm.trans failed)
          rfl
      · next lexeme read' => cases read.symm.trans read'

/-- A blank in front of a text only moves its tokens. -/
theorem listFrom_cons_of_isBlank {space : Char} (blank : Text.isBlank space = true)
    (afterOperand : Bool) (position : Nat) (text : List Char) :
    listFrom afterOperand position (space :: text) =
      listFrom afterOperand (position + space.utf8Size) text := by
  have body : (space :: text).dropWhile Text.isBlank = text.dropWhile Text.isBlank :=
    List.dropWhile_cons_of_pos blank
  have start : position + Text.byteWidth ((space :: text).takeWhile Text.isBlank) =
      position + space.utf8Size + Text.byteWidth (text.takeWhile Text.isBlank) := by
    rw [List.takeWhile_cons_of_pos blank, Text.byteWidth_cons, Nat.add_assoc]
  cases text_body : text.dropWhile Text.isBlank with
  | nil => rw [listFrom_of_blank (body.trans text_body), listFrom_of_blank text_body, start]
  | cons head tail =>
      cases read : Lexeme.read afterOperand head tail with
      | error fault =>
          rw [listFrom_of_fault (body.trans text_body) read, listFrom_of_fault text_body read,
            start]
      | ok lexeme =>
          rw [listFrom_of_read (body.trans text_body) read, listFrom_of_read text_body read, start]

end Token

namespace Lexer

/-- From one state and text the lexer reads some words and goes on from another. -/
def Passes (before : Bool) (text : List Char) (words : List TokenKind) (after : Bool)
    (rest : List Char) : Prop :=
  ∀ position, ∃ tokens behind, tokens.map Token.kind = words ∧
    Token.listFrom before position text = (Token.listFrom after behind rest).map (tokens ++ ·)

variable {before between after : Bool} {text middle rest : List Char}
  {words added : List TokenKind}

theorem passes_nothing : Passes before text [] before text := by
  intro position
  refine ⟨[], position, rfl, ?_⟩
  cases Token.listFrom before position text <;> rfl

theorem Passes.trans (first : Passes before text words between middle)
    (second : Passes between middle added after rest) :
    Passes before text (words ++ added) after rest := by
  intro position
  obtain ⟨tokens, place, rfl, read⟩ := first position
  obtain ⟨more, behind, rfl, read_more⟩ := second place
  refine ⟨tokens ++ more, behind, List.map_append, ?_⟩
  rw [read, read_more]
  cases Token.listFrom after behind rest with
  | error error => rfl
  | ok others => simp [Except.map]

/-- A lexeme is passed over as one word. -/
theorem passes_of_read {head : Char} {tail : List Char} {kind : TokenKind}
    {spelling : List Char} (solid : Text.isBlank head = false)
    (read : Lexeme.read before head tail = .ok ⟨kind, spelling, rest⟩) :
    Passes before (head :: tail) [kind] kind.endsOperand rest := by
  intro position
  have body_eq : (head :: tail).dropWhile Text.isBlank = head :: tail :=
    List.dropWhile_cons_of_neg (by simp [solid])
  exact ⟨[⟨kind, _⟩], _, rfl, Token.listFrom_of_read body_eq read position⟩

/-- A blank is passed over without a word. -/
theorem Passes.blank (passes : Passes before text words after rest) {space : Char}
    (blank : Text.isBlank space = true) : Passes before (space :: text) words after rest := by
  intro position
  obtain ⟨tokens, behind, words_eq, read⟩ := passes (position + space.utf8Size)
  exact ⟨tokens, behind, words_eq, (Token.listFrom_cons_of_isBlank blank _ _ _).trans read⟩

/-- A whole text that is passed over has the words of what was passed, and then it ends. -/
theorem exists_list_of_passes {source : String}
    (passes : Passes false source.toList words after []) :
    ∃ tokens last, Token.list source = .ok (tokens ++ [last]) ∧
      tokens.map Token.kind = words ∧ last.kind = .endOfText := by
  obtain ⟨tokens, behind, words_eq, read⟩ := passes 0
  have none : ([] : List Char).dropWhile Text.isBlank = [] := rfl
  rw [Token.listFrom_of_blank none] at read
  exact ⟨tokens, _, read, words_eq, rfl⟩

end Lexer
end FormRules
