import FormRules.Number.Shortest

/-!
# Settings

A tree of named settings, and the laying of one tree over another: tables are joined name by name,
and anything else is replaced, what stands under a table too. `place` lays a setting at a path,
making the tables on the way to it.
-/

namespace FormRules.Config

/-- A setting: a scalar, a list, or a table of named settings. -/
inductive Setting where
  | boolean (flag : Bool)
  | integer (value : Int)
  | decimal (value : Number)
  | text (content : String)
  /-- A list. Nothing is read from one, so what it lists is left out. -/
  | array
  /-- A table. The first of several entries with one name counts. -/
  | table (entries : List (String × Setting))

/-- Where a setting stands in a tree: the names on the way to it. -/
abbrev Path := List String

namespace Setting

/-- The table without entries. -/
def empty : Setting := table []

/-- The entries of a table; nothing else has any. -/
def entries : Setting → List (String × Setting)
  | table entries => entries
  | _ => []

/-- Whether a setting is a table. -/
def isTable : Setting → Bool
  | table _ => true
  | _ => false

/-- The entry of a name. -/
def get? (setting : Setting) (name : String) : Option Setting :=
  setting.entries.lookup name

/-- The setting at a path. -/
def find? (setting : Setting) : Path → Option Setting
  | [] => some setting
  | name :: path => (setting.get? name).bind (·.find? path)

/-- The entries with the first one of a name replaced, or with a new one at the end. -/
def replaceEntry (name : String) (child : Setting) :
    List (String × Setting) → List (String × Setting)
  | [] => [(name, child)]
  | entry :: rest =>
      if entry.1 = name then (name, child) :: rest else entry :: replaceEntry name child rest

/-- The table with the entry of a name set; anything else gives way to a table. -/
def put (setting : Setting) (name : String) (child : Setting) : Setting :=
  table (replaceEntry name child setting.entries)

mutual

/-- What stands where one setting is laid over another, if there is another. -/
def atop : Setting → Option Setting → Setting
  | table entries, below => entriesAtop entries ((below.filter isTable).getD empty)
  | leaf, _ => leaf

/-- A setting with named settings laid over its entries. -/
def entriesAtop : List (String × Setting) → Setting → Setting
  | [], below => below
  | (name, above) :: rest, below =>
      entriesAtop rest (below.put name (above.atop (below.get? name)))

end

/-- A tree with a setting laid at a path. -/
def place (above : Setting) : Path → Option Setting → Setting
  | [], below => above.atop below
  | name :: path, below =>
      let table := below.getD empty
      table.put name (above.place path (table.get? name))

theorem lookup_replaceEntry (name other : String) (child : Setting)
    (entries : List (String × Setting)) :
    (replaceEntry name child entries).lookup other =
      if other = name then some child else entries.lookup other := by
  induction entries with
  | nil =>
    simp only [replaceEntry, List.lookup_cons, List.lookup_nil]
    split <;> simp_all
  | cons entry rest ih =>
    obtain ⟨key, present⟩ := entry
    by_cases replaced : key = name
    · subst replaced
      simp only [replaceEntry, ↓reduceIte, List.lookup_cons]
      split <;> simp_all
    · simp only [replaceEntry, replaced, ↓reduceIte, List.lookup_cons]
      split <;> simp_all

@[simp]
theorem get?_put (setting child : Setting) (name other : String) :
    (setting.put name child).get? other =
      if other = name then some child else setting.get? other :=
  lookup_replaceEntry name other child setting.entries

@[simp]
theorem find?_cons (setting : Setting) (name : String) (path : Path) :
    setting.find? (name :: path) = (setting.get? name).bind (·.find? path) := rfl

/-! ## Conversions -/

/-- Words for truth, apart from the digit. -/
def trueWords : List String := ["true", "on", "yes"]

/-- Words for falsehood, apart from the digit. -/
def falseWords : List String := ["false", "off", "no"]

/-- A scalar as a text. -/
def toText? : Setting → Option String
  | boolean flag => some (if flag then "true" else "false")
  | integer value => some (toString value)
  | decimal value => some (String.ofList value.text)
  | text content => some content
  | array | table _ => none

/-- A scalar as a truth value: a number is true unless it is zero, and a text must be one of the
words in either case, or a digit. -/
def toFlag? : Setting → Option Bool
  | boolean flag => some flag
  | integer value => some (value != 0)
  | decimal value => some (!value.isZero)
  | text content =>
      let word := content.toLower
      if word = "1" ∨ word ∈ trueWords then some true
      else if word = "0" ∨ word ∈ falseWords then some false
      else none
  | array | table _ => none

/-- The number that a text of digits spells; a plus sign may stand before it. -/
def naturalOfDigits? (digits : List Char) : Option Nat :=
  let unsigned := match digits with
    | '+' :: rest => rest
    | _ => digits
  if unsigned ≠ [] ∧ unsigned.all Char.isDigit then some (Text.digitsValue unsigned) else none

/-- The first natural number that does not fit 64 bits. -/
def wordBound : Nat := 2 ^ 64

/-- The nearest natural number of 64 bits, where a half goes up. -/
def nearestNatural : Number → Nat
  | .nan => 0
  | .infinite negative => if negative then 0 else wordBound - 1
  | .finite negative magnitude =>
      if negative then 0
      else min (wordBound - 1)
        ((2 * magnitude.units + Magnitude.unitsPerOne) / (2 * Magnitude.unitsPerOne))

/-- A scalar as a natural number of 64 bits. -/
def toNatural? : Setting → Option Nat
  | boolean flag => some flag.toNat
  | integer value => value.toNat?
  | decimal value => some (nearestNatural value)
  | text content =>
      let word := content.toLower
      if word ∈ trueWords then some 1
      else if word ∈ falseWords then some 0
      else (naturalOfDigits? content.toList).filter (· < wordBound)
  | array | table _ => none

/-- A scalar as a natural number below a bound. -/
def toBounded? (bound : Nat) (setting : Setting) : Option (Fin bound) := do
  let value ← setting.toNatural?
  if fits : value < bound then some ⟨value, fits⟩ else none

end Setting
end FormRules.Config
