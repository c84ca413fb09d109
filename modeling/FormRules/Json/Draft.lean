import FormRules.Json.Lexeme

/-!
# Drafts of JSON documents

A draft is what can be made out of a text that need not be JSON: the tree of what stands before the
first fault, with the arrays and objects that the fault left open marked as such. A decoder that
walks a draft in the order of the text meets the defects of the text and the unfitness of the data
in the order in which a reader of the text would.
-/

namespace FormRules.Json

/-- What can be made out of a text. -/
inductive Draft where
  /-- A value was due where a fault stands. -/
  | broken
  | null
  | boolean (flag : Bool)
  /-- A number, which is missing if it is too large. -/
  | number (number : Option JsonNumber)
  /-- A string, which is missing if some part of it is no character. -/
  | text (content : Option String)
  | array (items : List Draft) (closed : Bool)
  | object (members : List (Option String × Draft)) (closed : Bool)

namespace Draft

/-- A container that is still open, its latest part first. -/
inductive Container where
  /-- An array; after a comma an item has to follow. -/
  | array (items : List Draft) (afterComma : Bool)
  /-- An array behind an item. -/
  | arrayItem (items : List Draft)
  /-- An object; after a comma a name has to follow. -/
  | object (members : List (Option String × Draft)) (afterComma : Bool)
  /-- An object behind the name of a member. -/
  | objectName (members : List (Option String × Draft)) (name : Option String)
  /-- An object behind a name and its colon. -/
  | objectColon (members : List (Option String × Draft)) (name : Option String)
  /-- An object behind a member. -/
  | objectMember (members : List (Option String × Draft))

/-- How far the reading of a text has come. -/
inductive Progress where
  /-- These containers are open, the innermost first. -/
  | reading (containers : List Container)
  /-- The value is complete; `alone` tells that nothing follows it. -/
  | done (value : Draft) (alone : Bool)
  /-- A fault stands behind what was read. -/
  | stuck (value : Draft)

/-- Puts a complete value into the innermost container, which waits for one. -/
def place (value : Draft) : List Container → Option Progress
  | [] => some (.done value true)
  | .array items _ :: outer => some (.reading (.arrayItem (value :: items) :: outer))
  | .objectColon members name :: outer =>
      some (.reading (.objectMember ((name, value) :: members) :: outer))
  | _ => none

/-- What a container amounts to if the text breaks off in it; a value that has begun is its last
part. -/
def Container.broken (inner : Option Draft) : Container → Draft
  | array items _ => .array (inner.toList ++ items).reverse false
  | arrayItem items => .array items.reverse false
  | object members _ => .object members.reverse false
  | objectName members name => .object ((name, Draft.broken) :: members).reverse false
  | objectColon members name =>
      .object ((name, inner.getD Draft.broken) :: members).reverse false
  | objectMember members => .object members.reverse false

/-- What open containers amount to if the text breaks off. -/
def breakOff (containers : List Container) : Draft :=
  (containers.foldl (fun inner container => some (container.broken inner)) none).getD broken

/-- The value of a lexeme that is one by itself. -/
def ofLexeme? : Lexeme → Option Draft
  | .null => some null
  | .boolean flag => some (boolean flag)
  | .number value => some (number value)
  | .text content => some (text content)
  | _ => none

/-- Reads one lexeme into open containers, unless it is out of place. -/
def feed? (containers : List Container) (lexeme : Lexeme) : Option Progress :=
  match containers, lexeme with
  | .array items false :: outer, .closeArray => place (.array items.reverse true) outer
  | .arrayItem items :: outer, .closeArray => place (.array items.reverse true) outer
  | .arrayItem items :: outer, .comma => some (.reading (.array items true :: outer))
  | .object members false :: outer, .closeObject => place (.object members.reverse true) outer
  | .object members _ :: outer, .text name => some (.reading (.objectName members name :: outer))
  | .objectName members name :: outer, .colon =>
      some (.reading (.objectColon members name :: outer))
  | .objectMember members :: outer, .closeObject =>
      place (.object members.reverse true) outer
  | .objectMember members :: outer, .comma => some (.reading (.object members true :: outer))
  | .object .. :: _, _ => none
  | .objectName .. :: _, _ => none
  | .objectMember _ :: _, _ => none
  | .arrayItem _ :: _, _ => none
  | _, .openArray => some (.reading (.array [] false :: containers))
  | _, .openObject => some (.reading (.object [] false :: containers))
  | _, _ => (ofLexeme? lexeme).bind (place · containers)

/-- Reads one more lexeme. -/
def advance : Progress → Lexeme → Progress
  | .reading containers, lexeme => (feed? containers lexeme).getD (.stuck (breakOff containers))
  | .done value _, _ => .done value false
  | .stuck value, _ => .stuck value

/-- A text as far as it can be read. -/
structure Document where
  value : Draft
  /-- Nothing follows the value. -/
  alone : Bool

/-- What a text amounts to that is read to its end. -/
def Progress.document : Progress → Document
  | reading containers => ⟨breakOff containers, true⟩
  | done value alone => ⟨value, alone⟩
  | stuck value => ⟨value, true⟩

/-- Makes out a text of symbols. -/
def ofSymbols (source : List Text.Symbol) : Document :=
  ((lexemes source).foldl advance (.reading [])).document

/-- Makes out a text. -/
def ofText (source : String) : Document :=
  ofSymbols (source.toList.map some)

/-- Makes out the text in bytes. -/
def ofBytes (bytes : ByteArray) : Document :=
  ofSymbols (Text.symbols bytes)

mutual

/-- A draft without faults, for a JSON value. -/
def ofJson : Json → Draft
  | .null => null
  | .boolean flag => boolean flag
  | .number value => number (some value)
  | .text content => text (some content)
  | .array items => array (ofItems items) true
  | .object members => object (ofMembers members) true

/-- Drafts of the items of an array. -/
def ofItems : List Json → List Draft
  | [] => []
  | head :: rest => ofJson head :: ofItems rest

/-- Drafts of the members of an object. -/
def ofMembers : List (String × Json) → List (Option String × Draft)
  | [] => []
  | (name, value) :: rest => (some name, ofJson value) :: ofMembers rest

end

mutual

/-- The text of the draft has no faults, whatever its numbers and strings mean. -/
def isComplete : Draft → Bool
  | broken => false
  | array items closed => allComplete items && closed
  | object members closed => membersComplete members && closed
  | _ => true

/-- The texts of all items are without faults. -/
def allComplete : List Draft → Bool
  | [] => true
  | head :: rest => head.isComplete && allComplete rest

/-- The texts of all members are without faults. -/
def membersComplete : List (Option String × Draft) → Bool
  | [] => true
  | (_, value) :: rest => value.isComplete && membersComplete rest

end

mutual

/-- The value of a draft whose containers are nested at most so many levels deep, if it has one. -/
def toJson? : Nat → Draft → Option Json
  | _, broken => none
  | _, null => some .null
  | _, boolean flag => some (.boolean flag)
  | _, number value => value.map .number
  | _, text content => content.map .text
  | 0, array _ _ => none
  | levels + 1, array items closed =>
      if closed then (itemsToJson? levels items).map .array else none
  | 0, object _ _ => none
  | levels + 1, object members closed =>
      if closed then (membersToJson? levels members).map .object else none

/-- The values of the items of an array. -/
def itemsToJson? : Nat → List Draft → Option (List Json)
  | _, [] => some []
  | levels, head :: rest => do
      let value ← toJson? levels head
      let values ← itemsToJson? levels rest
      return value :: values

/-- The values of the members of an object. -/
def membersToJson? : Nat → List (Option String × Draft) → Option (List (String × Json))
  | _, [] => some []
  | levels, (name?, value) :: rest => do
      let name ← name?
      let json ← toJson? levels value
      let members ← membersToJson? levels rest
      return (name, json) :: members

end

end Draft

/-- How deep the containers of a document may be nested. -/
def greatestDepth : Nat := 127

/-- The value of a JSON text. -/
def ofText? (source : String) : Option Json :=
  let document := Draft.ofText source
  if document.alone then document.value.toJson? greatestDepth else none

end FormRules.Json
