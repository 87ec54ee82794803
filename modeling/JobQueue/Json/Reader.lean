import JobQueue.Json
import JobQueue.Text.Quoted

/-!
# Reading JSON texts

A reader consumes characters from the front of a text and keeps count of the line and of the bytes
consumed in it, so that an error can say where it was noticed. Besides the reader for any value this
module holds the pieces that readers of particular shapes are made of: numbers, strings, the items
of an array, the members of an object, and a reader that only skips a value.
-/

namespace JobQueue.Json

/-! ## Positions and errors -/

/-- A place in a text: the line, counted from one, and the bytes of it consumed so far. -/
structure Position where
  line : Nat
  column : Nat
deriving DecidableEq, Inhabited

/-- What is left to read, and the place reached. -/
structure Cursor where
  rest : List Char
  place : Position
deriving Inhabited

/-- What a value is, where another kind of value was expected. -/
inductive Kind
  | null
  | bool (value : Bool)
  | integer (value : Int)
  | float (bits : UInt64)
  | string (value : String)
  | array
  | object
  | bareVariant
deriving DecidableEq

/-- Why a text cannot be read. -/
inductive Cause
  | endOfValue
  | endOfString
  | endOfList
  | endOfObject
  | expectedColon
  | expectedListCommaOrEnd
  | expectedObjectCommaOrEnd
  | expectedIdent
  | expectedValue
  | invalidNumber
  | numberOutOfRange
  | invalidEscape
  | loneSurrogate
  | unexpectedEndOfEscape
  | controlCharacter
  | keyMustBeString
  | trailingComma
  | trailingCharacters
  | tooDeep
  | invalidType (found : Kind) (expected : String)
  | invalidValue (found : Int) (expected : String)
  | invalidLength (length : Nat) (expected : String)
  | missingField (name : String)
  | duplicateField (name : String)
  | unknownVariant (name : String) (known : List String)
deriving DecidableEq

/-- A cause with the place where it was noticed, if it has one. -/
structure ReadError where
  cause : Cause
  place : Option Position
deriving DecidableEq

def Kind.text : Kind → String
  | .null => "null"
  | .bool true => "boolean `true`"
  | .bool false => "boolean `false`"
  | .integer n => "integer `" ++ toString n ++ "`"
  | .float bits => "floating point `" ++ String.ofList (writeFloat bits) ++ "`"
  | .string s => "string " ++ Text.quoted s
  | .array => "sequence"
  | .object => "map"
  | .bareVariant => "unit variant"

def Cause.message : Cause → String
  | .endOfValue => "EOF while parsing a value"
  | .endOfString => "EOF while parsing a string"
  | .endOfList => "EOF while parsing a list"
  | .endOfObject => "EOF while parsing an object"
  | .expectedColon => "expected `:`"
  | .expectedListCommaOrEnd => "expected `,` or `]`"
  | .expectedObjectCommaOrEnd => "expected `,` or `\x7d`"
  | .expectedIdent => "expected ident"
  | .expectedValue => "expected value"
  | .invalidNumber => "invalid number"
  | .numberOutOfRange => "number out of range"
  | .invalidEscape => "invalid escape"
  | .loneSurrogate => "lone leading surrogate in hex escape"
  | .unexpectedEndOfEscape => "unexpected end of hex escape"
  | .controlCharacter => "control character (\\u0000-\\u001F) found while parsing a string"
  | .keyMustBeString => "key must be a string"
  | .trailingComma => "trailing comma"
  | .trailingCharacters => "trailing characters"
  | .tooDeep => "recursion limit exceeded"
  | .invalidType found expected => "invalid type: " ++ found.text ++ ", expected " ++ expected
  | .invalidValue found expected =>
    "invalid value: integer `" ++ toString found ++ "`, expected " ++ expected
  | .invalidLength length expected =>
    "invalid length " ++ toString length ++ ", expected " ++ expected
  | .missingField name => "missing field `" ++ name ++ "`"
  | .duplicateField name => "duplicate field `" ++ name ++ "`"
  | .unknownVariant name known =>
    "unknown variant `" ++ name ++ "`, expected one of "
      ++ String.intercalate ", " (known.map fun k => "`" ++ k ++ "`")

/-- The wording with the place, where there is one. -/
def ReadError.message (e : ReadError) : String :=
  match e.place with
  | none => e.cause.message
  | some p =>
    e.cause.message ++ " at line " ++ toString p.line ++ " column " ++ toString p.column

/-! ## Moving through the text -/

/-- The place after one more character. -/
def Position.after (p : Position) (c : Char) : Position :=
  if c = '\n' then ⟨p.line + 1, 0⟩ else ⟨p.line, p.column + c.utf8Size⟩

/-- The place `count` bytes further on, which may be inside a character. -/
def Position.skip : Nat → List Char → Position → Position
  | _, [], p => p
  | count, c :: cs, p =>
    if c.utf8Size ≤ count then skip (count - c.utf8Size) cs (p.after c)
    else ⟨p.line, p.column + count⟩

namespace Cursor

def ofText (s : String) : Cursor := ⟨s.toList, ⟨1, 0⟩⟩

def peek? (c : Cursor) : Option Char := c.rest.head?

/-- Drops the next character. -/
def next (c : Cursor) : Cursor :=
  match c.rest with
  | [] => c
  | x :: xs => ⟨xs, c.place.after x⟩

/-- The place just after the next byte, which is where a character is reported. -/
def ahead (c : Cursor) : Position := c.place.skip 1 c.rest

def isBlank (c : Char) : Bool := c = ' ' || c = '\n' || c = '\t' || c = '\r'

/-- Drops blanks. -/
def skipBlanks (c : Cursor) : Cursor :=
  let rec go : List Char → Position → Cursor
    | [], p => ⟨[], p⟩
    | x :: xs, p => if isBlank x then go xs (p.after x) else ⟨x :: xs, p⟩
  go c.rest c.place

/-- An error at what was consumed. -/
def fail {α : Type} (c : Cursor) (cause : Cause) : Except ReadError α :=
  .error ⟨cause, some c.place⟩

/-- An error at the character that is next. -/
def failAhead {α : Type} (c : Cursor) (cause : Cause) : Except ReadError α :=
  .error ⟨cause, some c.ahead⟩

end Cursor

/-- A reader returns a value and what is left. -/
abbrev Reader (α : Type) := Cursor → Except ReadError (α × Cursor)

/-! ## Words and numbers -/

/-- Reads the given letters. -/
def readLetters : List Char → Reader Unit
  | [], c => .ok ((), c)
  | l :: ls, c =>
    match c.peek? with
    | none => c.fail .endOfValue
    | some x => if x = l then readLetters ls c.next else c.failAhead .expectedIdent

def digit? (c : Char) : Option Nat := if '0' ≤ c ∧ c ≤ '9' then some (c.toNat - 48) else none

/-- The largest integer that keeps all its digits. -/
def maxNatural : Nat := 18446744073709551615

/-- Reads decimal digits onto `acc` while it stays within `limit`. Also returns how many were
read, and whether the next digit would not fit. -/
def readDigits (limit : Nat) : Nat → Nat → List Char → Position → (Nat × Nat × Bool) × Cursor
  | acc, count, [], p => ((acc, count, false), ⟨[], p⟩)
  | acc, count, x :: xs, p =>
    match digit? x with
    | none => ((acc, count, false), ⟨x :: xs, p⟩)
    | some d =>
      if acc * 10 + d ≤ limit then readDigits limit (acc * 10 + d) (count + 1) xs (p.after x)
      else ((acc, count, true), ⟨x :: xs, p⟩)

/-- Drops decimal digits and counts them. -/
def skipDigits : Nat → List Char → Position → Nat × Cursor
  | count, [], p => (count, ⟨[], p⟩)
  | count, x :: xs, p =>
    if (digit? x).isSome then skipDigits (count + 1) xs (p.after x) else (count, ⟨x :: xs, p⟩)

/-- `10 ^ n` as a floating point number. -/
def powerOfTen (n : Nat) : Float := Float.ofScientific 1 false n

/-- `significand * 10 ^ exponent`, computed by one multiplication or division by a power of ten,
and by further divisions by `1e308` for smaller numbers. -/
def scaleFloat (significand : Nat) (exponent : Int) : Option Float :=
  let rec shrink : Nat → Float → Int → Option Float
    | 0, f, _ => some f
    | fuel + 1, f, e =>
      if -308 ≤ e then
        if e ≥ 0 then
          let scaled := f * powerOfTen e.toNat
          if scaled.isInf then none else some scaled
        else some (f / powerOfTen (-e).toNat)
      else if f == 0.0 then some f
      else shrink fuel (f / powerOfTen 308) (e + 308)
  let f := significand.toUInt64.toFloat
  if exponent > 308 then if f == 0.0 then some f else none
  else shrink (exponent.natAbs / 308 + 2) f exponent

/-- The number from its sign, digits and exponent. -/
def finishFloat (positive : Bool) (significand : Nat) (exponent : Int) : Reader Number := fun c =>
  match scaleFloat significand exponent with
  | none => c.fail .numberOutOfRange
  | some f => .ok (.float (if positive then f else -f).toBits, c)

/-- Reads the exponent, with the cursor at its letter. -/
def readExponent (positive : Bool) (significand : Nat) (exponent : Int) : Reader Number := fun c =>
  let c := c.next
  let (down, c) := match c.peek? with
    | some '+' => (false, c.next)
    | some '-' => (true, c.next)
    | _ => (false, c)
  match c.peek? with
  | none => c.fail .endOfValue
  | some x =>
    match digit? x with
    | none => c.failAhead .invalidNumber
    | some d =>
      let c := c.next
      let ((e, _, overflow), c) := readDigits 2147483647 d 1 c.rest c.place
      if overflow then
        if significand ≠ 0 ∧ !down then c.next.fail .numberOutOfRange
        else
          let (_, c) := skipDigits 0 c.rest c.place
          .ok (.float (if positive then 0.0 else -0.0 : Float).toBits, c)
      else finishFloat positive significand (if down then exponent - e else exponent + e) c

/-- Reads the exponent if there is one. -/
def readMaybeExponent (positive : Bool) (significand : Nat) (exponent : Int) : Reader Number :=
  fun c =>
    match c.peek? with
    | some 'e' => readExponent positive significand exponent c
    | some 'E' => readExponent positive significand exponent c
    | _ => finishFloat positive significand exponent c

/-- Reads the fraction, with the cursor at the point. Digits that no longer fit are dropped. -/
def readFraction (positive : Bool) (significand : Nat) (exponent : Int) : Reader Number := fun c =>
  let c := c.next
  let ((s, count, overflow), c) := readDigits maxNatural significand 0 c.rest c.place
  if overflow then
    let (_, c) := skipDigits 0 c.rest c.place
    readMaybeExponent positive s (exponent - count) c
  else if count = 0 then
    match c.peek? with
    | some _ => c.failAhead .invalidNumber
    | none => c.failAhead .endOfValue
  else readMaybeExponent positive s (exponent - count) c

/-- Reads a number after its sign. An integer that does not fit becomes a floating point number,
and so does a negative zero. -/
def readNumber (positive : Bool) : Reader Number := fun c =>
  match c.peek? with
  | none => c.fail .endOfValue
  | some x =>
    match digit? x with
    | none => c.failAhead .invalidNumber
    | some d =>
      let c := c.next
      if d = 0 ∧ (c.peek?.bind digit?).isSome then c.failAhead .invalidNumber
      else
        let ((s, _, overflow), c) :=
          if d = 0 then ((0, 1, false), c) else readDigits maxNatural d 1 c.rest c.place
        if overflow then
          let (extra, c) := skipDigits 0 c.rest c.place
          match c.peek? with
          | some '.' => readFraction positive s extra c
          | _ => readMaybeExponent positive s extra c
        else
          match c.peek? with
          | some '.' => readFraction positive s 0 c
          | some 'e' => readExponent positive s 0 c
          | some 'E' => readExponent positive s 0 c
          | _ =>
            if positive then .ok (.integer s, c)
            else if s = 0 ∨ 9223372036854775808 < s then .ok (.float (-s.toUInt64.toFloat).toBits, c)
            else .ok (.integer (-(s : Int)), c)

/-- The kind of a number, for a message. -/
def Number.kind : Number → Kind
  | .integer n => .integer n
  | .float bits => .float bits

/-! ## Strings -/

/-- Reads the four digits of a `\u` escape. -/
def readHex4 : Reader Nat := fun c =>
  let bytes := (c.rest.take 4).foldl (fun n x => n + x.utf8Size) 0
  if bytes < 4 then .error ⟨.endOfString, some (c.place.skip 4 c.rest)⟩
  else
    match c.rest.take 4, (c.rest.take 4).mapM hexValue? with
    | [w, x, y, z], some [a, b, d, e] =>
      let place := (((c.place.after w).after x).after y).after z
      .ok (((a * 16 + b) * 16 + d) * 16 + e, ⟨c.rest.drop 4, place⟩)
    | _, _ => .error ⟨.invalidEscape, some (c.place.skip 4 c.rest)⟩
where
  hexValue? (c : Char) : Option Nat :=
    if '0' ≤ c ∧ c ≤ '9' then some (c.toNat - 48)
    else if 'a' ≤ c ∧ c ≤ 'f' then some (c.toNat - 87)
    else if 'A' ≤ c ∧ c ≤ 'F' then some (c.toNat - 55)
    else none

/-- Reads the character of a `\u` escape. A leading surrogate has to be followed by the escape of
a trailing one. -/
def readUnicode : Reader Char := fun c => do
  let (n, c) ← readHex4 c
  if 0xDC00 ≤ n ∧ n ≤ 0xDFFF then c.fail .loneSurrogate
  else if n < 0xD800 ∨ 0xDBFF < n then .ok (Char.ofNat n, c)
  else
    match c.peek? with
    | none => c.fail .endOfString
    | some '\\' =>
      let c := c.next
      match c.peek? with
      | none => c.fail .endOfString
      | some 'u' =>
        let (m, c) ← readHex4 c.next
        if m < 0xDC00 ∨ 0xDFFF < m then c.fail .loneSurrogate
        else .ok (Char.ofNat ((n - 0xD800) * 0x400 + (m - 0xDC00) + 0x10000), c)
      | some _ => c.failAhead .unexpectedEndOfEscape
    | some _ => c.failAhead .unexpectedEndOfEscape

/-- Reads the rest of an escape after its backslash. -/
def readEscape : Reader Char := fun c =>
  match c.peek? with
  | none => c.fail .endOfString
  | some 'u' => readUnicode c.next
  | some x =>
    match x with
    | '"' => .ok ('"', c.next)
    | '\\' => .ok ('\\', c.next)
    | '/' => .ok ('/', c.next)
    | 'b' => .ok ('\x08', c.next)
    | 'f' => .ok ('\x0c', c.next)
    | 'n' => .ok ('\n', c.next)
    | 'r' => .ok ('\r', c.next)
    | 't' => .ok ('\t', c.next)
    | _ => c.failAhead .invalidEscape

/-- Reads the characters of a string up to its closing quote. Each round consumes a character, so
the length of the rest bounds the rounds. -/
def readChars : Nat → List Char → Reader (List Char)
  | 0, _, c => c.fail .endOfString
  | fuel + 1, acc, c =>
    match c.peek? with
    | none => c.fail .endOfString
    | some '"' => .ok (acc.reverse, c.next)
    | some '\\' => do
      let (x, c) ← readEscape c.next
      readChars fuel (x :: acc) c
    | some x =>
      if x.toNat < 0x20 then c.failAhead .controlCharacter
      else readChars fuel (x :: acc) c.next

/-- Reads a string, with the cursor after its opening quote. -/
def readString : Reader String := fun c => do
  let (cs, c) ← readChars (c.rest.length + 1) [] c
  .ok (String.ofList cs, c)

/-! ## Values of another kind -/

/-- The error where the value that is next is not of the expected kind. A scalar is consumed first
and reported at its end, an array or object before it starts. -/
def readOtherKind {α : Type} (expected : String) : Reader α := fun c => do
  match c.peek? with
  | some 'n' =>
    let (_, c) ← readLetters ['u', 'l', 'l'] c.next
    c.fail (.invalidType .null expected)
  | some 't' =>
    let (_, c) ← readLetters ['r', 'u', 'e'] c.next
    c.fail (.invalidType (.bool true) expected)
  | some 'f' =>
    let (_, c) ← readLetters ['a', 'l', 's', 'e'] c.next
    c.fail (.invalidType (.bool false) expected)
  | some '-' =>
    let (n, c) ← readNumber false c.next
    c.fail (.invalidType n.kind expected)
  | some '"' =>
    let (s, c) ← readString c.next
    c.fail (.invalidType (.string s) expected)
  | some '[' => c.fail (.invalidType .array expected)
  | some '\x7b' => c.fail (.invalidType .object expected)
  | some x =>
    if (digit? x).isSome then
      let (n, c) ← readNumber true c
      c.fail (.invalidType n.kind expected)
    else c.failAhead .expectedValue
  | none => c.failAhead .expectedValue

/-! ## Items and members -/

/-- How deep arrays and objects may nest. -/
def depthLimit : Nat := 127

/-- Where an array or object ends, a value has been read, and its closing bracket is due: the
cursor after it, or the cause that stands in the way with the place to report an error from outside
at. -/
structure Closing where
  cause : Option ReadError
  cursor : Cursor

/-- Looks for the closing bracket of an array. -/
def closeArray (c : Cursor) : Closing :=
  let c := c.skipBlanks
  match c.peek? with
  | some ']' => ⟨none, c.next⟩
  | some ',' =>
    let c := c.next.skipBlanks
    if c.peek? = some ']' then ⟨some ⟨.trailingComma, some c.ahead⟩, c⟩
    else ⟨some ⟨.trailingCharacters, some c.ahead⟩, c⟩
  | some _ => ⟨some ⟨.trailingCharacters, some c.ahead⟩, c⟩
  | none => ⟨some ⟨.endOfList, some c.ahead⟩, c⟩

/-- Looks for the closing brace of an object. -/
def closeObject (c : Cursor) : Closing :=
  let c := c.skipBlanks
  match c.peek? with
  | some '\x7d' => ⟨none, c.next⟩
  | some ',' => ⟨some ⟨.trailingComma, some c.ahead⟩, c⟩
  | some _ => ⟨some ⟨.trailingCharacters, some c.ahead⟩, c⟩
  | none => ⟨some ⟨.endOfObject, some c.ahead⟩, c⟩

/-- Moves to the next item of an array, if there is one. The cursor stays before the bracket. -/
def nextItem? (first : Bool) : Reader Bool := fun c =>
  let c := c.skipBlanks
  match c.peek? with
  | none => c.failAhead .endOfList
  | some ']' => .ok (false, c)
  | some ',' =>
    if first then .ok (true, c)
    else
      let c := c.next.skipBlanks
      match c.peek? with
      | some ']' => c.failAhead .trailingComma
      | some _ => .ok (true, c)
      | none => c.failAhead .endOfValue
  | some _ => if first then .ok (true, c) else c.failAhead .expectedListCommaOrEnd

/-- Reads the items of an array up to its bracket. Each round consumes a character. -/
def readItems {α : Type} (item : Reader α) : Nat → Bool → List α → Reader (List α)
  | 0, _, _, c => c.failAhead .endOfList
  | fuel + 1, first, acc, c => do
    let (more, c) ← nextItem? first c
    if more then
      let (x, c) ← item c
      readItems item fuel false (x :: acc) c
    else .ok (acc.reverse, c)

/-- Moves to the key of the next member of an object, if there is one, and reads it. The cursor
stays before the brace. -/
def nextKey? (first : Bool) : Reader (Option String) := fun c =>
  let c := c.skipBlanks
  let key (c : Cursor) : Except ReadError (Option String × Cursor) :=
    match c.peek? with
    | some '"' => do
      let (k, c) ← readString c.next
      .ok (some k, c)
    | some '\x7d' => c.failAhead .trailingComma
    | some _ => c.failAhead .keyMustBeString
    | none => c.failAhead .endOfValue
  match c.peek? with
  | none => c.failAhead .endOfObject
  | some '\x7d' => .ok (none, c)
  | some ',' => if first then key c else key c.next.skipBlanks
  | some _ => if first then key c else c.failAhead .expectedObjectCommaOrEnd

/-- Reads the colon after a key. -/
def readColon : Reader Unit := fun c =>
  let c := c.skipBlanks
  match c.peek? with
  | some ':' => .ok ((), c.next)
  | some _ => c.failAhead .expectedColon
  | none => c.failAhead .endOfObject

/-- Reads the members of an object up to its brace. Each round consumes a character. -/
def readMembers {α : Type} (value : Reader α) :
    Nat → Bool → List (String × α) → Reader (List (String × α))
  | 0, _, _, c => c.failAhead .endOfObject
  | fuel + 1, first, acc, c => do
    let (key?, c) ← nextKey? first c
    match key? with
    | none => .ok (acc.reverse, c)
    | some k =>
      let (_, c) ← readColon c
      let (v, c) ← value c
      readMembers value fuel false ((k, v) :: acc) c

/-- Reads the items and the closing bracket, with the cursor after the opening one. -/
def readArray {α : Type} (item : Reader α) : Reader (List α) := fun c => do
  let (xs, c) ← readItems item (c.rest.length + 1) true [] c
  match closeArray c with
  | ⟨none, c⟩ => .ok (xs, c)
  | ⟨some e, _⟩ => .error e

/-! ## Any value -/

/-- Reads any value that nests at most `depth` deep. -/
def readValue : Nat → Reader Json
  | depth, c => do
    let c := c.skipBlanks
    match c.peek? with
    | none => c.failAhead .endOfValue
    | some 'n' =>
      let (_, c) ← readLetters ['u', 'l', 'l'] c.next
      .ok (.null, c)
    | some 't' =>
      let (_, c) ← readLetters ['r', 'u', 'e'] c.next
      .ok (.bool true, c)
    | some 'f' =>
      let (_, c) ← readLetters ['a', 'l', 's', 'e'] c.next
      .ok (.bool false, c)
    | some '-' =>
      let (n, c) ← readNumber false c.next
      .ok (.number n, c)
    | some '"' =>
      let (s, c) ← readString c.next
      .ok (.string s, c)
    | some '[' =>
      match depth with
      | 0 => c.failAhead .tooDeep
      | depth + 1 =>
        let (xs, c) ← readArray (readValue depth) c.next
        .ok (.array xs, c)
    | some '\x7b' =>
      match depth with
      | 0 => c.failAhead .tooDeep
      | depth + 1 =>
        let c := c.next
        let (ms, c) ← readMembers (readValue depth) (c.rest.length + 1) true [] c
        match closeObject c with
        | ⟨none, c⟩ => .ok (ofMembers ms, c)
        | ⟨some e, _⟩ => .error e
    | some x =>
      if (digit? x).isSome then
        let (n, c) ← readNumber true c
        .ok (.number n, c)
      else c.failAhead .expectedValue

/-! ## Skipping a value -/

/-- Skips an escape of a string whose value is not needed: surrogates need no partner. -/
def skipEscape : Reader Unit := fun c =>
  match c.peek? with
  | none => c.fail .endOfString
  | some 'u' => do
    let (_, c) ← readHex4 c.next
    .ok ((), c)
  | some x =>
    if x ∈ ['"', '\\', '/', 'b', 'f', 'n', 'r', 't'] then .ok ((), c.next)
    else c.failAhead .invalidEscape

/-- Skips the characters of a string up to its closing quote. -/
def skipChars : Nat → Reader Unit
  | 0, c => c.fail .endOfString
  | fuel + 1, c =>
    match c.peek? with
    | none => c.fail .endOfString
    | some '"' => .ok ((), c.next)
    | some '\\' => do
      let (_, c) ← skipEscape c.next
      skipChars fuel c
    | some x => if x.toNat < 0x20 then c.fail .controlCharacter else skipChars fuel c.next

def skipString : Reader Unit := fun c => skipChars (c.rest.length + 1) c

/-- Skips the exponent of a number, with the cursor at its letter. -/
def skipExponent : Reader Unit := fun c =>
  let c := c.next
  let c := match c.peek? with
    | some '+' => c.next
    | some '-' => c.next
    | _ => c
  match c.peek? with
  | none => c.fail .invalidNumber
  | some x =>
    if (digit? x).isSome then .ok ((), (skipDigits 0 c.rest c.place).2)
    else c.failAhead .invalidNumber

/-- Skips a number after its sign. -/
def skipNumber : Reader Unit := fun c =>
  match c.peek? with
  | none => c.fail .invalidNumber
  | some x =>
    match digit? x with
    | none => c.failAhead .invalidNumber
    | some d =>
      let c := c.next
      if d = 0 ∧ (c.peek?.bind digit?).isSome then c.failAhead .invalidNumber
      else
        let c := if d = 0 then c else (skipDigits 0 c.rest c.place).2
        match c.peek? with
        | some 'e' => skipExponent c
        | some 'E' => skipExponent c
        | some '.' =>
          let (count, c) := skipDigits 0 c.next.rest c.next.place
          if count = 0 then c.failAhead .invalidNumber
          else
            match c.peek? with
            | some 'e' => skipExponent c
            | some 'E' => skipExponent c
            | _ => .ok ((), c)
        | _ => .ok ((), c)

/-- An array or an object that is being skipped. -/
inductive Bracket
  | array
  | object
deriving DecidableEq

def Bracket.endOf : Bracket → Cause
  | .array => .endOfList
  | .object => .endOfObject

def Bracket.commaOrEnd : Bracket → Cause
  | .array => .expectedListCommaOrEnd
  | .object => .expectedObjectCommaOrEnd

def Bracket.closes : Bracket → Char → Bool
  | .array, x => x = ']'
  | .object, x => x = '\x7d'

/-- What follows a value or an opening bracket inside the open brackets: closes those that end, and
returns the brackets that are still open, with the cursor before the next value or key. -/
def skipClosing : Nat → Bool → List Bracket → Reader (List Bracket)
  | _, _, [], c => .ok ([], c)
  | 0, _, _, c => c.failAhead .endOfValue
  | fuel + 1, comma, b :: bs, c =>
    let c := c.skipBlanks
    match c.peek? with
    | none => c.failAhead b.endOf
    | some x =>
      if x = ',' ∧ comma then .ok (b :: bs, c.next)
      else if b.closes x then skipClosing fuel true bs c.next
      else if comma then c.failAhead b.commaOrEnd
      else .ok (b :: bs, c)

/-- Skips one value and everything after it that belongs to the open brackets. -/
def skipFrom : Nat → List Bracket → Reader Unit
  | 0, _, c => c.failAhead .endOfValue
  | fuel + 1, open_, c => do
    let c := c.skipBlanks
    let (comma, open_, c) ← match c.peek? with
      | none => c.failAhead .endOfValue
      | some 'n' => do
        let (_, c) ← readLetters ['u', 'l', 'l'] c.next
        .ok (true, open_, c)
      | some 't' => do
        let (_, c) ← readLetters ['r', 'u', 'e'] c.next
        .ok (true, open_, c)
      | some 'f' => do
        let (_, c) ← readLetters ['a', 'l', 's', 'e'] c.next
        .ok (true, open_, c)
      | some '-' => do
        let (_, c) ← skipNumber c.next
        .ok (true, open_, c)
      | some '"' => do
        let (_, c) ← skipString c.next
        .ok (true, open_, c)
      | some '[' => .ok (false, .array :: open_, c.next)
      | some '\x7b' => .ok (false, .object :: open_, c.next)
      | some x =>
        if (digit? x).isSome then do
          let (_, c) ← skipNumber c
          .ok (true, open_, c)
        else c.failAhead .expectedValue
    let (open_, c) ← skipClosing (c.rest.length + 1) comma open_ c
    match open_ with
    | [] => .ok ((), c)
    | .array :: _ => skipFrom fuel open_ c
    | .object :: _ =>
      let c := c.skipBlanks
      match c.peek? with
      | none => c.failAhead .endOfObject
      | some '"' =>
        let (_, c) ← skipString c.next
        let (_, c) ← readColon c
        skipFrom fuel open_ c
      | some _ => c.failAhead .keyMustBeString

/-- Skips any value, however deep. -/
def skipValue : Reader Unit := fun c => skipFrom (c.rest.length + 1) [] c

/-! ## Whole texts -/

/-- Reads a whole text with the given reader: only blanks may follow. -/
def readAll {α : Type} (r : Reader α) (s : String) : Except ReadError α := do
  let (x, c) ← r (Cursor.ofText s)
  let c := c.skipBlanks
  match c.peek? with
  | none => .ok x
  | some _ => c.failAhead .trailingCharacters

/-- Reads a whole text that holds any value. -/
def ofText (s : String) : Except ReadError Json := readAll (readValue depthLimit) s

end JobQueue.Json
