/-!
# Media types

A media type is a type and a subtype, with parameters behind them. A subtype may end in a suffix
that names the notation it is based on.
-/

namespace Canvas.Http

/-- A media type without its parameters, in lower case. -/
structure MediaType where
  type : String
  subtype : String
  suffix : Option String
  deriving DecidableEq

namespace MediaType

/-- A character that a name may hold. -/
def isToken (c : Char) : Bool := c.isAlphanum || "!#$%&'*+-.^_`|~".toList.contains c

/-- Names in lower case. -/
def lower (cs : List Char) : String := String.ofList (cs.map Char.toLower)

/-- A subtype and its suffix, which starts behind the last plus sign. -/
def splitSuffix (cs : List Char) : List Char × Option (List Char) :=
  let suffix := (cs.reverse.takeWhile (· ≠ '+')).reverse
  let before := cs.take (cs.length - suffix.length - 1)
  if before.isEmpty then (cs, none) else (before, some suffix)

/-- A character that a quoted value may hold. -/
def isQuotable (c : Char) : Bool := 0x20 ≤ c.toNat && c.toNat < 0x7F

/-- The text behind a quoted value and the blanks that follow it. A quoted value holds something:
its first character never ends it, not even a quote. -/
def behindQuoted? (cs : List Char) : Option (List Char) :=
  match cs with
  | [] => none
  | first :: rest =>
    match rest.dropWhile (· ≠ '"') with
    | [] => none
    | _ :: behind =>
      if (first :: rest.takeWhile (· ≠ '"')).all isQuotable then some (behind.dropWhile (· = ' '))
      else none

/-- The text behind the value of a parameter. Nothing may follow an empty value. -/
def behindValue? (cs : List Char) : Option (List Char) :=
  match cs with
  | '"' :: rest => behindQuoted? rest
  | ';' :: _ => none
  | _ => some (cs.dropWhile isToken)

/-- The text behind the name of a parameter and the equals sign, past blanks. -/
def behindName? (cs : List Char) : Option (List Char) :=
  let named := cs.dropWhile (· = ' ')
  match named.dropWhile isToken with
  | '=' :: rest => if named.head? = some '=' then none else some rest
  | _ => none

/-- Whether parameters are well-formed; blanks alone are. `fuel` bounds their number. -/
def areParameters (fuel : Nat) (cs : List Char) : Bool :=
  match fuel with
  | 0 => false
  | fuel + 1 =>
    cs.all (· = ' ') ||
      match (behindName? cs).bind behindValue? with
      | some [] => true
      | some (';' :: rest) => areParameters fuel rest
      | _ => false

/-- Read a media type. -/
def ofString? (s : String) : Option MediaType :=
  let (type, rest) := s.toList.span isToken
  match type, rest with
  | _ :: _, '/' :: rest =>
    let (subtype, rest) := rest.span isToken
    let (subtype, suffix) := splitSuffix subtype
    let mediaType : MediaType := ⟨lower type, lower subtype, suffix.map lower⟩
    match rest with
    | [] => some mediaType
    | ';' :: rest => if areParameters (rest.length + 1) rest then some mediaType else none
    | _ => none
  | _, _ => none

/-- Whether the content is JSON, or based on it. -/
def isJson (mediaType : MediaType) : Bool :=
  mediaType.subtype = "json" || mediaType.suffix = some "json"

end MediaType

end Canvas.Http
