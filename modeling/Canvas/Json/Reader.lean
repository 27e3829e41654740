import Canvas.Json.Document
import Canvas.Json.Numeral

/-!
# Reading JSON texts

`read` turns a text into a document. It never fails: where the text goes wrong, the document holds
the fault at that place and ends there. Between two characters at most two functions call each
other, so a fuel of twice the length of the text and two more is never used up.

Lists and objects may be nested to a limit. One that is nested deeper fails a reader that needs it
as soon as it is opened; a reader that passes over it meets no limit.
-/

namespace Canvas.Json

/-- White space between tokens. -/
def isBlank (c : Char) : Bool := c = ' ' || c = '\n' || c = '\t' || c = '\r'

/-- The text behind leading white space. -/
def dropBlanks (cs : List Char) : List Char := cs.dropWhile isBlank

/-- A unit of four hexadecimal digits, and the text behind it. With fewer than four bytes left the
text has ended. -/
def scanUnit (cs : List Char) : Except Flaw (Nat × List Char) :=
  match cs with
  | a :: b :: c :: d :: rest =>
    match Text.hexValue? a, Text.hexValue? b, Text.hexValue? c, Text.hexValue? d with
    | some a, some b, some c, some d => .ok (((a * 16 + b) * 16 + c) * 16 + d, rest)
    | _, _, _, _ => .error .invalidEscape
  | _ => if (String.ofList cs).utf8ByteSize < 4 then .error .endInString else .error .invalidEscape

theorem length_scanUnit {cs rest : List Char} {n : Nat} (h : scanUnit cs = .ok (n, rest)) :
    rest.length < cs.length := by
  unfold scanUnit at h
  split at h
  · split at h
    · simp only [Except.ok.injEq, Prod.mk.injEq] at h
      simp [← h.2]
      omega
    · simp at h
  · split at h <;> simp at h

/-- A leading surrogate. -/
def isLeading (n : Nat) : Bool := 0xD800 ≤ n && n ≤ 0xDBFF

/-- A trailing surrogate. -/
def isTrailing (n : Nat) : Bool := 0xDC00 ≤ n && n ≤ 0xDFFF

/-- The second half of a surrogate pair: the trailing unit and the text behind it, or what a reader
reports in its place. -/
def scanSecondHalf (cs : List Char) : Except Flaw (Nat × List Char) :=
  match cs with
  | [] | ['\\'] => .error .endInString
  | '\\' :: 'u' :: rest => do
    let (n, rest) ← scanUnit rest
    if isTrailing n then .ok (n, rest) else .error .loneSurrogate
  | _ => .error .cutSurrogatePair

theorem length_scanSecondHalf {cs rest : List Char} {n : Nat}
    (h : scanSecondHalf cs = .ok (n, rest)) : rest.length < cs.length := by
  unfold scanSecondHalf at h
  split at h
  · simp at h
  · simp at h
  · rename_i tail
    cases hu : scanUnit tail with
    | error e => simp [hu, bind, Except.bind] at h
    | ok p =>
      obtain ⟨m, r⟩ := p
      have := length_scanUnit hu
      simp only [hu, bind, Except.bind] at h
      split at h
      · simp only [Except.ok.injEq, Prod.mk.injEq] at h
        simp only [List.length_cons, ← h.2]
        omega
      · simp at h
  · simp at h

/-- The character of a pair of surrogates. -/
def pairChar (leading trailing : Nat) : Char :=
  Char.ofNat (0x10000 + (leading - 0xD800) * 0x400 + (trailing - 0xDC00))

/-- The character that a one-letter escape stands for. -/
def escaped? : Char → Option Char
  | '"' => some '"'
  | '\\' => some '\\'
  | '/' => some '/'
  | 'b' => some '\x08'
  | 'f' => some '\x0c'
  | 'n' => some '\n'
  | 'r' => some '\r'
  | 't' => some '\t'
  | _ => none

/-- The end of reading a string: its characters, or what a reader reports although the string has an
end, and the text behind the closing quote. -/
abbrev StringScan := Except Fault (Except Flaw String × List Char)

/-- Read a string behind its opening quote. `soFar` holds the characters in reverse, `unread` the
first flaw that only a reader minds. -/
def scanString (soFar : List Char) (unread : Option Flaw) (cs : List Char) : StringScan :=
  let stop (flaw : Flaw) : StringScan := .error ⟨unread.getD flaw, flaw⟩
  match cs with
  | [] => stop .endInString
  | '"' :: rest =>
    match unread with
    | none => .ok (.ok (String.ofList soFar.reverse), rest)
    | some flaw => .ok (.error flaw, rest)
  | '\\' :: rest =>
    match rest with
    | [] => stop .endInString
    | 'u' :: rest =>
      match hu : scanUnit rest with
      | .error flaw => stop flaw
      | .ok (n, tail) =>
        have := length_scanUnit hu
        if isTrailing n then scanString soFar (unread <|> some .loneSurrogate) tail
        else if isLeading n then
          match hs : scanSecondHalf tail with
          | .ok (m, tail') =>
            have := length_scanSecondHalf hs
            scanString (pairChar n m :: soFar) unread tail'
          | .error flaw => scanString soFar (unread <|> some flaw) tail
        else scanString (Char.ofNat n :: soFar) unread tail
    | c :: rest =>
      match escaped? c with
      | some c => scanString (c :: soFar) unread rest
      | none => stop .invalidEscape
  | c :: rest =>
    if c.toNat < 32 then stop .controlCharacter else scanString (c :: soFar) unread rest
termination_by cs.length
decreasing_by all_goals simp_all <;> omega

/-- Read the rest of a word whose first letter was seen. -/
def scanWord (word : List Char) (cs : List Char) : Except Flaw (List Char) :=
  match word, cs with
  | [], cs => .ok cs
  | _ :: _, [] => .error .endInToken
  | w :: word, c :: cs => if w = c then scanWord word cs else .error .expectedWord

/-- A value and the text behind it; no text if reading ended at a fault. -/
abbrev Reading := Document × Option (List Char)

/-- Reading ends here, inside a value. -/
def ended (fault : Fault) : Reading := (.broken fault, none)

/-- Read a word that stands for a value. -/
def readWord (value : Document) (word cs : List Char) : Reading :=
  match scanWord word cs with
  | .ok rest => (value, some rest)
  | .error flaw => ended (.both flaw)

/-- Read a numeral behind its sign. -/
def readNumeral (negative : Bool) (cs : List Char) : Reading :=
  match scanNumeral cs with
  | .error fault => ended fault
  | .ok (numeral, rest) =>
    match numeral.value negative with
    | some (.int i) => (.int i, some rest)
    | some (.float x) => (.float x, some rest)
    | none => (.unreadable .numberOutOfRange none, some rest)

/-- Read a string behind its opening quote. -/
def readString (cs : List Char) : Reading :=
  match scanString [] none cs with
  | .error fault => ended fault
  | .ok (.ok s, rest) => (.str s, some rest)
  | .ok (.error flaw, rest) => (.unreadable flaw none, some rest)

/-- The number of levels of lists and objects at which a reader gives up. -/
def depthLimit : Nat := 128

/-- The document of a list or an object. `depth` is the number of levels that are left where it is
opened; with the last of them it is too deep. -/
def nested (depth : Nat) (document : Document) : Document :=
  if 1 < depth then document
  else
    match document.skip with
    | .ok () => .unreadable .tooDeep none
    | .error flaw => .unreadable .tooDeep (some flaw)

mutual

/-- Read a value. `depth` is the number of levels that are left. -/
def readValue (fuel depth : Nat) (cs : List Char) : Reading :=
  match fuel with
  | 0 => ended (.both .endInValue)
  | fuel + 1 =>
    match dropBlanks cs with
    | [] => ended (.both .endInValue)
    | 'n' :: rest => readWord .null ['u', 'l', 'l'] rest
    | 't' :: rest => readWord (.bool true) ['r', 'u', 'e'] rest
    | 'f' :: rest => readWord (.bool false) ['a', 'l', 's', 'e'] rest
    | '"' :: rest => readString rest
    | '-' :: rest => readNumeral true rest
    | '[' :: rest =>
      match dropBlanks rest with
      | [] => (nested depth (.arr [] (some (.both .endInList))), none)
      | ']' :: rest => (nested depth (.arr [] none), some rest)
      | _ :: _ =>
        let (items, fault, rest) := readItems fuel (depth - 1) rest
        (nested depth (.arr items fault), rest)
    | '{' :: rest =>
      match dropBlanks rest with
      | [] => (nested depth (.obj [] (some (.both .endInObject))), none)
      | '}' :: rest => (nested depth (.obj [] none), some rest)
      | '"' :: rest =>
        let (members, fault, rest) := readMembers fuel (depth - 1) rest
        (nested depth (.obj members fault), rest)
      | _ :: _ => (nested depth (.obj [] (some (.both .keyNotString))), none)
    | c :: rest =>
      if c.isDigit then readNumeral false (c :: rest) else ended (.both .expectedValue)

/-- Read the items of a list that has at least one. -/
def readItems (fuel depth : Nat) (cs : List Char) :
    List Document × Option Fault × Option (List Char) :=
  match fuel with
  | 0 => ([], some (.both .endInList), none)
  | fuel + 1 =>
    match readValue fuel depth cs with
    | (item, none) => ([item], none, none)
    | (item, some rest) =>
      match dropBlanks rest with
      | [] => ([item], some (.both .endInList), none)
      | ']' :: rest => ([item], none, some rest)
      | ',' :: rest =>
        match dropBlanks rest with
        | ']' :: _ => ([item], some ⟨.trailingComma, .expectedValue⟩, none)
        | rest =>
          let (items, fault, rest) := readItems fuel depth rest
          (item :: items, fault, rest)
      | _ :: _ => ([item], some (.both .expectedListEnd), none)

/-- Read the members of an object that has at least one, behind the quote of the first name. -/
def readMembers (fuel depth : Nat) (cs : List Char) :
    List (Except Flaw String × Document) × Option Fault × Option (List Char) :=
  match fuel with
  | 0 => ([], some (.both .endInObject), none)
  | fuel + 1 =>
    match scanString [] none cs with
    | .error fault =>
      if fault.onRead = fault.onSkip then ([], some fault, none)
      else ([(.error fault.onRead, .broken fault)], none, none)
    | .ok (name, rest) =>
      match dropBlanks rest with
      | [] => ([(name, .broken (.both .endInObject))], none, none)
      | ':' :: rest =>
        match readValue fuel depth rest with
        | (value, none) => ([(name, value)], none, none)
        | (value, some rest) =>
          match dropBlanks rest with
          | [] => ([(name, value)], some (.both .endInObject), none)
          | '}' :: rest => ([(name, value)], none, some rest)
          | ',' :: rest =>
            match dropBlanks rest with
            | [] => ([(name, value)], some ⟨.endInValue, .endInObject⟩, none)
            | '"' :: rest =>
              let (members, fault, rest) := readMembers fuel depth rest
              ((name, value) :: members, fault, rest)
            | '}' :: _ => ([(name, value)], some ⟨.trailingComma, .keyNotString⟩, none)
            | _ :: _ => ([(name, value)], some (.both .keyNotString), none)
          | _ :: _ => ([(name, value)], some (.both .expectedObjectEnd), none)
      | _ :: _ => ([(name, .broken (.both .expectedColon))], none, none)

end

/-- A text as a document, and whether something else follows the value. -/
def read (text : String) : Document × Bool :=
  let cs := text.toList
  match readValue (2 * cs.length + 2) depthLimit cs with
  | (document, none) => (document, false)
  | (document, some rest) => (document, !(dropBlanks rest).isEmpty)

end Canvas.Json
