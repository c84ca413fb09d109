import FormRules.Proofs.Lexer.Passing
import FormRules.Text.Alphanumeric

/-!
# What lexemes spell

The spellings of the tokens are given here without a lexer, and so is what may not stand behind
them. Reading a lexeme off a text comes to exactly such a spelling.
-/

namespace FormRules

namespace Text

theorem isBlank_eq_false {character : Char} (above : 0x21 ≤ character.toNat)
    (below : character.toNat ≤ 0x7E) : isBlank character = false := by
  simp only [isBlank, blankRanges, List.any_cons, List.any_nil, Bool.or_eq_false_iff,
    Bool.and_eq_false_iff, decide_eq_false_iff_not, Bool.or_false]
  omega

/-- A run of a class is cut off whole in front of anything else. -/
theorem span_append {accepted : Char → Bool} {run rest : List Char}
    (inside : ∀ character ∈ run, accepted character = true)
    (ends : ∀ next ∈ rest.head?, accepted next = false) :
    (run ++ rest).takeWhile accepted = run ∧ (run ++ rest).dropWhile accepted = rest := by
  rw [List.takeWhile_append_of_pos inside, List.dropWhile_append_of_pos inside]
  cases rest with
  | nil => simp
  | cons next rest => simp [ends next rfl]

/-- What follows a run does not continue it. -/
theorem stops_dropWhile (accepted : Char → Bool) (text : List Char) :
    ∀ next ∈ (text.dropWhile accepted).head?, accepted next = false := by
  intro next follows
  have stops := List.head?_dropWhile_not accepted text
  rwa [Option.mem_def.1 follows] at stops

end Text

namespace Quoted

/-- Between two quotes a body stands for a content. A backslash hides the enclosing quote and a
backslash, and is kept before anything else. -/
inductive Spells (quote : Char) : List Char → List Char → Prop where
  | nothing : Spells quote [] []
  | plain {character : Char} {body content : List Char} (no_quote : character ≠ quote)
      (no_backslash : character ≠ '\\') (rest : Spells quote body content) :
      Spells quote (character :: body) (character :: content)
  | escaped {character : Char} {body content : List Char}
      (special : character = quote ∨ character = '\\') (rest : Spells quote body content) :
      Spells quote ('\\' :: character :: body) (character :: content)
  | kept {character : Char} {body content : List Char} (no_quote : character ≠ quote)
      (no_backslash : character ≠ '\\') (rest : Spells quote body content) :
      Spells quote ('\\' :: character :: body) ('\\' :: character :: content)

theorem Spells.read? {quote : Char} (no_backslash : quote ≠ '\\') {body content : List Char}
    (spells : Spells quote body content) (rest : List Char) :
    read? quote (body ++ quote :: rest) = some ⟨content, body ++ [quote], rest⟩ := by
  induction spells with
  | nothing =>
      rw [List.nil_append]
      unfold Quoted.read?
      split <;> simp_all
  | plain other plain _ induction =>
      rw [List.cons_append]
      unfold Quoted.read?
      split <;> simp_all
  | escaped special _ induction => simp [Quoted.read?, induction, special]
  | kept other plain _ induction => simp [Quoted.read?, induction, other, plain]

theorem exists_spells_of_read? {quote : Char} {text : List Char} {reading : Reading}
    (read : read? quote text = some reading) :
    ∃ body, reading.spelling = body ++ [quote] ∧ Spells quote body reading.content := by
  fun_induction read? quote text generalizing reading with
  | case1 => simp at read
  | case2 => simp at read
  | case3 escaped text induction =>
      obtain ⟨inner, inner_read, rfl⟩ := Option.map_eq_some_iff.1 read
      obtain ⟨body, spelling_eq, spells⟩ := induction inner_read
      refine ⟨'\\' :: escaped :: body, by simp [spelling_eq], ?_⟩
      dsimp only
      split
      case isTrue special => exact .escaped special spells
      case isFalse ordinary =>
        obtain ⟨no_quote, no_backslash⟩ := not_or.1 ordinary
        exact .kept no_quote no_backslash spells
  | case4 =>
      obtain rfl := Option.some.inj read
      exact ⟨[], rfl, .nothing⟩
  | case5 head text unfinished unescaped other induction =>
      obtain ⟨inner, inner_read, rfl⟩ := Option.map_eq_some_iff.1 read
      obtain ⟨body, spelling_eq, spells⟩ := induction inner_read
      refine ⟨head :: body, by simp [spelling_eq], .plain other ?_ spells⟩
      rintro rfl
      cases text with
      | nil => exact unfinished rfl rfl
      | cons escaped text => exact unescaped escaped text rfl rfl

end Quoted

namespace Lexeme

/-- A text is a name: a letter or an underscore, and then letters, digits and underscores. -/
def isName (name : String) : Bool :=
  match name.toList with
  | [] => false
  | head :: tail => startsName head && tail.all continuesName

theorem exists_of_isName {name : String} (named : isName name = true) :
    ∃ head tail, name.toList = head :: tail ∧ startsName head = true ∧
      ∀ character ∈ head :: tail, continuesName character = true := by
  unfold isName at named
  split at named
  · exact nomatch named
  · next head tail name_eq =>
      obtain ⟨starts, continues⟩ := (Bool.and_eq_true_iff ..).1 named
      refine ⟨head, tail, name_eq, starts, fun character member => ?_⟩
      rcases List.mem_cons.1 member with rfl | behind
      · exact continuesName_of_startsName starts
      · exact List.all_eq_true.1 continues character behind

theorem toNat_of_startsName {head : Char} (starts : startsName head = true) :
    0x41 ≤ head.toNat ∧ head.toNat ≤ 0x7A := by
  rcases (Bool.or_eq_true_iff ..).1 starts with letter | underscore
  · have range := Text.toNat_of_isAlpha letter
    omega
  · obtain rfl := eq_of_beq underscore
    decide

theorem read_of_isDigit {head : Char} (digit : head.isDigit = true) (before : Bool)
    (tail : List Char) : read before head tail = number (head :: tail) := by
  have no_quote : ¬Quoted.isQuote head = true := by
    intro quote
    rcases (Bool.or_eq_true_iff ..).1 quote with same | same <;>
    · obtain rfl := eq_of_beq same
      exact absurd digit (by decide)
  unfold read
  split <;> first
    | exact absurd digit (by decide)
    | rw [if_neg no_quote, if_pos digit]

theorem read_of_startsName {head : Char} (starts : startsName head = true) (before : Bool)
    (tail : List Char) : read before head tail = .ok (name (head :: tail)) := by
  have range := toNat_of_startsName starts
  have no_quote : ¬Quoted.isQuote head = true := by
    intro quote
    rcases (Bool.or_eq_true_iff ..).1 quote with same | same <;>
    · obtain rfl := eq_of_beq same
      exact absurd starts (by decide)
  have no_digit : ¬head.isDigit = true := by
    intro digit
    have below : head.toNat ≤ 0x39 := (Char.isDigit_iff_toNat.1 digit).2
    omega
  unfold read
  split <;> first
    | exact absurd starts (by decide)
    | rw [if_neg no_quote, if_neg no_digit, if_pos starts]

/-! ### Names -/

theorem name_append {name : String} (named : isName name = true) {rest : List Char}
    (ends : ∀ next ∈ rest.head?, continuesName next = false) :
    Lexeme.name (name.toList ++ rest) = ⟨.identifier name, name.toList, rest⟩ := by
  obtain ⟨head, tail, name_eq, -, continues⟩ := exists_of_isName named
  have parts := Text.span_append (name_eq ▸ continues) ends
  rw [Lexeme.name, parts.1, parts.2, String.ofList_toList]

theorem isName_takeWhile {head : Char} (starts : startsName head = true) (tail : List Char) :
    isName (String.ofList ((head :: tail).takeWhile continuesName)) = true := by
  have continues : ∀ character ∈ tail.takeWhile continuesName, continuesName character = true :=
    List.all_eq_true.1 List.all_takeWhile
  rw [isName, String.toList_ofList, List.takeWhile_cons_of_pos (continuesName_of_startsName starts)]
  simp only [starts, Bool.true_and, List.all_eq_true]
  exact continues

/-! ### Numbers -/

section Numbers

variable {numeral rest : List Char} {decimal : Decimal}

theorem number_append (spells : Decimal.Spells numeral decimal)
    (finite : (decimal.toNumber false).isFinite = true)
    (ends : ∀ next ∈ rest.head?, next.isDigit = false ∧ next ≠ '.') :
    number (numeral ++ rest) = .ok ⟨.number (decimal.toNumber false), numeral, rest⟩ := by
  rw [number, spells.splitNumber ends]
  dsimp only
  rw [spells.ofNumeral?, Option.filter_some, if_pos finite]

theorem negativeNumber_append (spells : Decimal.Spells numeral decimal)
    (finite : (decimal.toNumber false).isFinite = true)
    (ends : ∀ next ∈ rest.head?, next.isDigit = false ∧ next ≠ '.') :
    negativeNumber (numeral ++ rest) =
      .ok ⟨.number (decimal.toNumber false).negate, '-' :: numeral, rest⟩ := by
  rw [negativeNumber, spells.splitNumber ends]
  dsimp only
  rw [spells.ofNumeral?, Option.filter_some, if_pos finite]

/-- What is cut off as a number is a plain numeral, and no digit follows it. -/
theorem exists_spells_of_splitNumber {text : List Char}
    (digit : text.head?.any Char.isDigit = true) (split : splitNumber text = .ok (numeral, rest)) :
    (∃ decimal, Decimal.Spells numeral decimal) ∧
      ∀ next ∈ rest.head?, next.isDigit = false := by
  obtain ⟨head, follows, is_digit⟩ := (Option.any_eq_true ..).1 digit
  obtain ⟨tail, rfl⟩ := List.head?_eq_some_iff.1 follows
  have whole : (head :: tail).takeWhile Char.isDigit ≠ [] := by
    rw [List.takeWhile_cons_of_pos is_digit]
    exact List.cons_ne_nil _ _
  have run (text : List Char) : ∀ next ∈ text.takeWhile Char.isDigit, next.isDigit = true :=
    List.all_eq_true.1 List.all_takeWhile
  unfold splitNumber Text.spanDigits at split
  dsimp only at split
  split at split
  case h_1 tail _ =>
    split at split
    · exact nomatch split
    case isFalse fraction =>
      obtain ⟨rfl, rfl⟩ := Prod.mk.inj (Except.ok.inj split)
      exact ⟨⟨_, .point whole fraction (run _) (run _)⟩, Text.stops_dropWhile _ _⟩
  case h_2 =>
    obtain ⟨rfl, rfl⟩ := Prod.mk.inj (Except.ok.inj split)
    exact ⟨⟨_, .whole whole (run _)⟩, Text.stops_dropWhile _ _⟩

/-- The value of what is cut off as a number is the finite number that the numeral denotes. -/
theorem exists_spells_of_value {text : List Char} {value : Number}
    (digit : text.head?.any Char.isDigit = true) (split : splitNumber text = .ok (numeral, rest))
    (denotes : (Number.ofNumeral? numeral).filter Number.isFinite = some value) :
    ∃ decimal, Decimal.Spells numeral decimal ∧ decimal.toNumber false = value ∧
      value.isFinite = true ∧ ∀ next ∈ rest.head?, next.isDigit = false := by
  obtain ⟨⟨decimal, spells⟩, ends⟩ := exists_spells_of_splitNumber digit split
  obtain ⟨same, finite⟩ := Option.filter_eq_some_iff.1 denotes
  rw [spells.ofNumeral?] at same
  exact ⟨decimal, spells, Option.some.inj same, finite, ends⟩

end Numbers

end Lexeme

namespace Lexer

/-- A spelling of a token, whatever stands around it. -/
inductive Spells : List Char → TokenKind → Prop where
  | leftParen : Spells ['('] .leftParen
  | rightParen : Spells [')'] .rightParen
  | comma : Spells [','] .comma
  | plus : Spells ['+'] .plus
  | minus : Spells ['-'] .minus
  | star : Spells ['*'] .star
  | slash : Spells ['/'] .slash
  | percent : Spells ['%'] .percent
  | less : Spells ['<'] .less
  | lessEqual : Spells ['<', '='] .lessEqual
  | greater : Spells ['>'] .greater
  | greaterEqual : Spells ['>', '='] .greaterEqual
  | equal : Spells ['='] .equal
  | doubleEqual : Spells ['=', '='] .equal
  | notEqual : Spells ['!', '='] .notEqual
  /-- A letter or an underscore, and then letters, digits and underscores. -/
  | name {name : String} (named : Lexeme.isName name = true) :
      Spells name.toList (.identifier name)
  /-- Digits, perhaps with a point among them, that denote a finite number. -/
  | number {numeral : List Char} {decimal : Decimal} (spells : Decimal.Spells numeral decimal)
      (finite : (decimal.toNumber false).isFinite = true) :
      Spells numeral (.number (decimal.toNumber false))
  | negative {numeral : List Char} {decimal : Decimal} (spells : Decimal.Spells numeral decimal)
      (finite : (decimal.toNumber false).isFinite = true) :
      Spells ('-' :: numeral) (.number (decimal.toNumber false).negate)
  | text {quote : Char} {body content : List Char} (encloses : Quoted.isQuote quote = true)
      (spells : Quoted.Spells quote body content) :
      Spells (quote :: body ++ [quote]) (.text (String.ofList content))

/-- A spelling starts with neither a blank nor a point. -/
theorem Spells.exists_head {spelling : List Char} {kind : TokenKind}
    (spells : Spells spelling kind) :
    ∃ head tail, spelling = head :: tail ∧ Text.isBlank head = false ∧ head ≠ '.' := by
  cases spells with
  | name named =>
      obtain ⟨head, tail, name_eq, starts, -⟩ := Lexeme.exists_of_isName named
      have range := Lexeme.toNat_of_startsName starts
      refine ⟨head, tail, name_eq, Text.isBlank_eq_false (by omega) (by omega), ?_⟩
      rintro rfl
      exact absurd range (by decide)
  | number numeral =>
      obtain ⟨head, tail, numeral_eq, digit⟩ := numeral.exists_head
      have range : 0x30 ≤ head.toNat ∧ head.toNat ≤ 0x39 := Char.isDigit_iff_toNat.1 digit
      refine ⟨head, tail, numeral_eq, Text.isBlank_eq_false (by omega) (by omega), ?_⟩
      rintro rfl
      exact absurd digit (by decide)
  | text encloses =>
      obtain same | same := (Bool.or_eq_true_iff ..).1 encloses
      all_goals
        obtain rfl := eq_of_beq same
        exact ⟨_, _, rfl, rfl, by decide⟩
  | _ => exact ⟨_, _, rfl, rfl, by decide⟩

/-- A character behind a name or a number would belong to it. -/
def goesOn : TokenKind → Char → Bool
  | .identifier _, next => Lexeme.continuesName next
  | .number _, next => next.isDigit
  | _, _ => false

/-- The token is a number. -/
def isNumber : TokenKind → Bool
  | .number _ => true
  | _ => false

/-- What stands behind a lexeme does not lengthen it, and a minus in front of a digit belongs to the
number unless an operand has just ended. -/
structure Longest (before : Bool) (spelling : List Char) (kind : TokenKind) (rest : List Char) :
    Prop where
  ends : ∀ next ∈ rest.head?, goesOn kind next = false
  equals : spelling ∈ [['<'], ['>'], ['=']] → rest.head? ≠ some '='
  sign : ∀ digit tail, spelling ++ rest = '-' :: digit :: tail → digit.isDigit = true →
    (isNumber kind = true ↔ before = false)

section Longest

variable {before : Bool} {rest : List Char}

/-- A lexeme is settled by its first character, if that is neither a sign nor goes on with an
equals sign. -/
theorem longest_of_head {head : Char} (plain : head ∉ ['<', '>', '=', '-']) (tail : List Char)
    {kind : TokenKind} (ends : ∀ next ∈ rest.head?, goesOn kind next = false) :
    Longest before (head :: tail) kind rest where
  ends := ends
  equals same := by
    simp only [List.mem_cons, List.cons.injEq, List.not_mem_nil, or_false] at same
    rcases same with ⟨rfl, -⟩ | ⟨rfl, -⟩ | ⟨rfl, -⟩ <;> simp at plain
  sign digit others parts := by
    obtain ⟨rfl, -⟩ := List.cons.inj parts
    simp at plain

theorem longest_name {name : String} (named : Lexeme.isName name = true)
    (ends : ∀ next ∈ rest.head?, Lexeme.continuesName next = false) :
    Longest before name.toList (.identifier name) rest := by
  obtain ⟨head, tail, name_eq, starts, -⟩ := Lexeme.exists_of_isName named
  rw [name_eq]
  refine longest_of_head (fun mark => ?_) tail ends
  simp only [List.mem_cons, List.not_mem_nil, or_false] at mark
  rcases mark with rfl | rfl | rfl | rfl <;> exact absurd starts (by decide)

theorem longest_number {numeral : List Char} {decimal : Decimal}
    (spells : Decimal.Spells numeral decimal)
    (ends : ∀ next ∈ rest.head?, next.isDigit = false) (value : Number) :
    Longest before numeral (.number value) rest := by
  obtain ⟨head, tail, rfl, digit⟩ := spells.exists_head
  refine longest_of_head (fun mark => ?_) tail ends
  simp only [List.mem_cons, List.not_mem_nil, or_false] at mark
  rcases mark with rfl | rfl | rfl | rfl <;> exact absurd digit (by decide)

theorem longest_negative (numeral : List Char)
    (ends : ∀ next ∈ rest.head?, next.isDigit = false) (value : Number) :
    Longest false ('-' :: numeral) (.number value) rest where
  ends := ends
  equals := by simp
  sign := by simp [isNumber]

theorem longest_text {quote : Char} (encloses : Quoted.isQuote quote = true) (tail : List Char)
    (content : String) : Longest before (quote :: tail) (.text content) rest := by
  refine longest_of_head (fun mark => ?_) tail fun _ _ => rfl
  simp only [List.mem_cons, List.not_mem_nil, or_false] at mark
  rcases mark with rfl | rfl | rfl | rfl <;> exact absurd encloses (by decide)

end Longest

/-! ## Reading a spelling -/

section Reading

variable {before : Bool} {rest : List Char}

theorem withEquals_of_head {kind longer : TokenKind} {head : Char}
    (other : rest.head? ≠ some '=') :
    Lexeme.withEquals kind longer head rest = ⟨kind, [head], rest⟩ := by
  unfold Lexeme.withEquals
  split
  · exact absurd rfl other
  · rfl

theorem read_of_isQuote {quote : Char} (encloses : Quoted.isQuote quote = true)
    (tail : List Char) : Lexeme.read before quote tail = Lexeme.quoted quote tail := by
  obtain same | same := (Bool.or_eq_true_iff ..).1 encloses
  all_goals
    obtain rfl := eq_of_beq same
    rfl

/-- A spelling is read off a text that goes on with nothing that lengthens it. A number must not
have a point behind it, with which no lexeme starts. -/
theorem read_of_spells {spelling : List Char} {kind : TokenKind} (spells : Spells spelling kind)
    (longest : Longest before spelling kind rest)
    (no_point : isNumber kind = true → rest.head? ≠ some '.') {head : Char} {tail : List Char}
    (parts : spelling ++ rest = head :: tail) :
    Lexeme.read before head tail = .ok ⟨kind, spelling, rest⟩ := by
  -- A point behind digits is not excluded by their maximality: the lexer then insists on a
  -- fraction.
  have number_ends (number : isNumber kind = true)
      (ends : ∀ next ∈ rest.head?, next.isDigit = false) :
      ∀ next ∈ rest.head?, next.isDigit = false ∧ next ≠ '.' := fun next follows =>
    ⟨ends next follows, fun point => no_point number (point ▸ follows)⟩
  cases spells with
  | minus =>
      obtain ⟨rfl, rfl⟩ := List.cons.inj parts
      refine if_neg fun signs => ?_
      obtain ⟨operand, digit⟩ := (Bool.and_eq_true_iff ..).1 signs
      obtain ⟨next, follows, is_digit⟩ := (Option.any_eq_true ..).1 digit
      obtain ⟨others, rfl⟩ := List.head?_eq_some_iff.1 follows
      have sign := longest.sign next others rfl is_digit
      exact nomatch sign.2 (by simpa using operand)
  | less =>
      obtain ⟨rfl, rfl⟩ := List.cons.inj parts
      exact congrArg Except.ok (withEquals_of_head (longest.equals (by simp)))
  | greater =>
      obtain ⟨rfl, rfl⟩ := List.cons.inj parts
      exact congrArg Except.ok (withEquals_of_head (longest.equals (by simp)))
  | equal =>
      obtain ⟨rfl, rfl⟩ := List.cons.inj parts
      exact congrArg Except.ok (withEquals_of_head (longest.equals (by simp)))
  | name named =>
      obtain ⟨first, others, name_eq, starts, -⟩ := Lexeme.exists_of_isName named
      have first_eq : first = head := by
        rw [name_eq] at parts
        exact (List.cons.inj parts).1
      rw [Lexeme.read_of_startsName (first_eq ▸ starts), ← parts,
        Lexeme.name_append named longest.ends]
  | number numeral finite =>
      obtain ⟨first, others, rfl, digit⟩ := numeral.exists_head
      obtain ⟨rfl, -⟩ := List.cons.inj parts
      rw [Lexeme.read_of_isDigit digit, ← parts,
        Lexeme.number_append numeral finite (number_ends rfl longest.ends)]
  | negative numeral finite =>
      obtain ⟨rfl, rfl⟩ := List.cons.inj parts
      obtain ⟨first, others, rfl, digit⟩ := numeral.exists_head
      obtain rfl : before = false := (longest.sign first _ rfl digit).1 rfl
      exact (if_pos digit).trans
        (Lexeme.negativeNumber_append numeral finite (number_ends rfl longest.ends))
  | @text quote body content encloses quoted =>
      have no_backslash : quote ≠ '\\' := by
        rintro rfl
        exact absurd encloses (by decide)
      rw [List.append_assoc, List.singleton_append, List.cons_append] at parts
      obtain ⟨rfl, rfl⟩ := List.cons.inj parts
      rw [read_of_isQuote encloses, Lexeme.quoted, quoted.read? no_backslash rest]
      rfl
  | _ =>
      obtain ⟨rfl, rfl⟩ := List.cons.inj parts
      rfl

/-! ## Spellings that were read -/

/-- A lexeme spells its token and is the longest one at its place. -/
structure Fits (before : Bool) (lexeme : Lexeme) : Prop where
  spells : Spells lexeme.spelling lexeme.kind
  longest : Longest before lexeme.spelling lexeme.kind lexeme.rest

theorem fits_single {kind : TokenKind} {head : Char} (spells : Spells [head] kind)
    (closed : ∀ next, goesOn kind next = false) (alone : head ∉ ['<', '>', '=', '-'])
    (tail : List Char) : Fits before (Lexeme.single kind head tail) where
  spells := spells
  longest := longest_of_head alone [] fun next _ => closed next

theorem fits_minus {tail : List Char}
    (unsigned : ¬ (!before && tail.head?.any Char.isDigit) = true) :
    Fits before (Lexeme.single .minus '-' tail) where
  spells := .minus
  longest := {
    ends := fun _ _ => rfl
    equals := by simp [Lexeme.single]
    sign := by
      rintro digit others parts is_digit
      obtain ⟨-, rfl⟩ := List.cons.inj parts
      simp_all [Lexeme.single, isNumber] }

theorem fits_withEquals {kind longer : TokenKind} {head : Char} (spells : Spells [head] kind)
    (lengthened : Spells [head, '='] longer) (closed : ∀ next, goesOn kind next = false)
    (longer_closed : ∀ next, goesOn longer next = false) (unsigned : head ≠ '-')
    (tail : List Char) : Fits before (Lexeme.withEquals kind longer head tail) := by
  unfold Lexeme.withEquals
  split
  case h_1 rest =>
    refine ⟨lengthened, fun next _ => longer_closed next, by simp, fun digit others parts => ?_⟩
    exact absurd (List.cons.inj parts).1 unsigned
  case h_2 other =>
    refine ⟨spells, fun next _ => closed next, fun _ follows => ?_, fun digit others parts => ?_⟩
    · obtain ⟨rest, rfl⟩ := List.head?_eq_some_iff.1 follows
      exact other rest rfl
    · exact absurd (List.cons.inj parts).1 unsigned

theorem fits_quoted {quote : Char} {tail : List Char} {lexeme : Lexeme}
    (encloses : Quoted.isQuote quote = true) (read : Lexeme.quoted quote tail = .ok lexeme) :
    Fits before lexeme := by
  unfold Lexeme.quoted at read
  split at read
  case h_1 reading reading_eq =>
    obtain rfl := Except.ok.inj read
    obtain ⟨body, spelling_eq, spells⟩ := Quoted.exists_spells_of_read? reading_eq
    refine ⟨?_, longest_text encloses _ _⟩
    dsimp only
    rw [spelling_eq]
    exact .text encloses spells
  case h_2 => exact nomatch read

theorem fits_name {head : Char} (starts : Lexeme.startsName head = true) (tail : List Char) :
    Fits before (Lexeme.name (head :: tail)) := by
  have named := Lexeme.isName_takeWhile starts tail
  have ends := Text.stops_dropWhile Lexeme.continuesName (head :: tail)
  have spells := Spells.name named
  have longest : Longest before _ _ _ := longest_name named ends
  rw [String.toList_ofList] at spells longest
  exact ⟨spells, longest⟩

theorem fits_number {head : Char} {tail : List Char} {lexeme : Lexeme}
    (digit : head.isDigit = true) (read : Lexeme.number (head :: tail) = .ok lexeme) :
    Fits before lexeme := by
  have front : (head :: tail).head?.any Char.isDigit = true := digit
  unfold Lexeme.number at read
  split at read
  · exact nomatch read
  case h_2 numeral rest split =>
    split at read
    case h_1 value denotes =>
      obtain rfl := Except.ok.inj read
      obtain ⟨decimal, spells, rfl, finite, ends⟩ :=
        Lexeme.exists_spells_of_value front split denotes
      exact ⟨.number spells finite, longest_number spells ends _⟩
    case h_2 => exact nomatch read

theorem fits_negativeNumber {tail : List Char} {lexeme : Lexeme}
    (digit : tail.head?.any Char.isDigit = true)
    (read : Lexeme.negativeNumber tail = .ok lexeme) : Fits false lexeme := by
  unfold Lexeme.negativeNumber at read
  split at read
  · exact nomatch read
  case h_2 numeral rest split =>
    split at read
    case h_1 value denotes =>
      obtain rfl := Except.ok.inj read
      obtain ⟨decimal, spells, rfl, finite, ends⟩ :=
        Lexeme.exists_spells_of_value digit split denotes
      exact ⟨.negative spells finite, longest_negative numeral ends _⟩
    case h_2 => exact nomatch read

/-- What is read off a text fits in its place. -/
theorem fits_of_read {head : Char} {tail : List Char} {lexeme : Lexeme}
    (read : Lexeme.read before head tail = .ok lexeme) : Fits before lexeme := by
  unfold Lexeme.read at read
  split at read
  case h_8 =>
    split at read
    case isTrue signs =>
      obtain ⟨operand, digit⟩ := (Bool.and_eq_true_iff ..).1 signs
      obtain rfl : before = false := by simpa using operand
      exact fits_negativeNumber digit read
    case isFalse unsigned =>
      obtain rfl := Except.ok.inj read
      exact fits_minus unsigned
  case h_12 =>
    split at read
    · obtain rfl := Except.ok.inj read
      exact ⟨.notEqual, longest_of_head (by simp) _ fun _ _ => rfl⟩
    · exact nomatch read
  case h_13 =>
    split at read
    case isTrue encloses => exact fits_quoted encloses read
    split at read
    case isTrue digit => exact fits_number digit read
    split at read
    case isTrue starts =>
      obtain rfl := Except.ok.inj read
      exact fits_name starts tail
    case isFalse => exact nomatch read
  all_goals
    obtain rfl := Except.ok.inj read
  case h_9 => exact fits_withEquals .less .lessEqual (fun _ => rfl) (fun _ => rfl) (by simp) tail
  case h_10 =>
    exact fits_withEquals .greater .greaterEqual (fun _ => rfl) (fun _ => rfl) (by simp) tail
  case h_11 =>
    exact fits_withEquals .equal .doubleEqual (fun _ => rfl) (fun _ => rfl) (by simp) tail
  all_goals exact fits_single (by constructor) (fun _ => rfl) (by simp) tail

end Reading

end Lexer
end FormRules
