/-!
# Request targets

What stands between the method and the version of a request line: a path with its query, a whole
URL, a mere authority, or an asterisk. `Target.path` is the path by which the request is routed; a
query and a fragment take no part in it.
-/

namespace FormRules.Service.Target

/-- The characters that end a path. -/
def endsPath (character : Char) : Bool :=
  character == '?' || character == '#'

/-- The characters that end an authority. -/
def endsAuthority (character : Char) : Bool :=
  character == '/' || endsPath character

/-- The text behind the mark between a scheme and an authority, if there is such a mark. -/
def behindScheme? : List Char → Option (List Char)
  | ':' :: '/' :: '/' :: rest => some rest
  | _ :: rest => behindScheme? rest
  | [] => none

/-- The path of a text up to its query and its fragment. -/
def leadingPath (text : List Char) : List Char :=
  text.takeWhile (!endsPath ·)

/-- The path of a URL behind its scheme. A URL without one has the root as its path. -/
def pathBehindScheme (text : List Char) : List Char :=
  match leadingPath (text.dropWhile (!endsAuthority ·)) with
  | [] => ['/']
  | path => path

/-- The path of a target. An authority has an empty one. -/
def pathOf (target : List Char) : List Char :=
  match target with
  | '/' :: _ | ['*'] => leadingPath target
  | _ => ((behindScheme? target).map pathBehindScheme).getD []

/-- The path of a target. -/
def path (target : String) : String :=
  String.ofList (pathOf target.toList)

end FormRules.Service.Target
