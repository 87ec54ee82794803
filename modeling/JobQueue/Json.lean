import JobQueue.Decimal.Shortest

/-!
# JSON values

The values that job parameters are made of, and their compact written form: no spaces, members in
the order of the object, non-ASCII characters as they are.
-/

namespace JobQueue

/-- A number is kept as a 64-bit integer where it was written as one that fits, and otherwise as
the bits of a floating point number. -/
inductive Json.Number
  | integer (value : Int)
  | float (bits : UInt64)
deriving DecidableEq, Inhabited

/-- A JSON value. The members of an object are sorted by key, without duplicates, when the object
was read from a text. -/
inductive Json
  | null
  | bool (value : Bool)
  | number (value : Json.Number)
  | string (value : String)
  | array (items : List Json)
  | object (members : List (String × Json))
deriving Inhabited

namespace Json

def nat (n : Nat) : Json := .number (.integer n)
def int (n : Int) : Json := .number (.integer n)

/-! ## Written form -/

/-- One character between the quotes of a string. -/
def escapeChar (c : Char) : List Char :=
  match c with
  | '"' => ['\\', '"']
  | '\\' => ['\\', '\\']
  | '\x08' => ['\\', 'b']
  | '\x0c' => ['\\', 'f']
  | '\n' => ['\\', 'n']
  | '\r' => ['\\', 'r']
  | '\t' => ['\\', 't']
  | c =>
    if c.toNat < 0x20 then
      ['\\', 'u', '0', '0', Nat.digitChar (c.toNat / 16), Nat.digitChar (c.toNat % 16)]
    else [c]

/-- A string with its quotes. -/
def writeString (s : String) : List Char :=
  '"' :: s.toList.flatMap escapeChar ++ ['"']

/-- Digits with a point or an exponent. Numbers from `1e-5` up to `1e16` are positional, and one
without fraction keeps a `.0`. -/
def writeDigits (d : Decimal.Digits) : List Char :=
  let d := d.normalize
  let ds := Nat.toDigits 10 d.digits
  -- The place of the decimal point, counted from the first digit.
  let point : Int := ds.length + d.exponent
  if 0 ≤ d.exponent ∧ point ≤ 16 then
    ds ++ List.replicate d.exponent.toNat '0' ++ ['.', '0']
  else if 0 < point ∧ point ≤ 16 then
    ds.take point.toNat ++ '.' :: ds.drop point.toNat
  else if -5 < point ∧ point ≤ 0 then
    '0' :: '.' :: List.replicate (-point).toNat '0' ++ ds
  else
    let e := (toString (point - 1)).toList
    match ds with
    | [d] => d :: 'e' :: e
    | d :: rest => d :: '.' :: rest ++ 'e' :: e
    | [] => []

/-- A floating point number by its bits. -/
def writeFloat (bits : UInt64) : List Char :=
  let sign := if bits.toNat / 9223372036854775808 = 1 then ['-'] else []
  let magnitude := bits.toNat % 9223372036854775808
  if magnitude = 0 then sign ++ ['0', '.', '0']
  else sign ++ writeDigits (Decimal.Binary.ofBits magnitude.toUInt64).shortest

def Number.write : Number → List Char
  | .integer n => (toString n).toList
  | .float bits => writeFloat bits

/-- Puts commas between the written items. -/
def commaSeparated (items : List (List Char)) : List Char :=
  List.intercalate [','] items

/-- The compact written form. -/
def write : Json → List Char
  | .null => ['n', 'u', 'l', 'l']
  | .bool true => ['t', 'r', 'u', 'e']
  | .bool false => ['f', 'a', 'l', 's', 'e']
  | .number n => n.write
  | .string s => writeString s
  | .array items => '[' :: commaSeparated (writeItems items) ++ [']']
  | .object members => '\x7b' :: commaSeparated (writeMembers members) ++ ['\x7d']
where
  writeItems : List Json → List (List Char)
    | [] => []
    | x :: xs => write x :: writeItems xs
  writeMembers : List (String × Json) → List (List Char)
    | [] => []
    | (k, v) :: ms => (writeString k ++ ':' :: write v) :: writeMembers ms

/-- The compact written form as a text. -/
def text (j : Json) : String := String.ofList j.write

/-! ## Members -/

/-- Adds a member in the order of the keys. An existing member of that name is replaced. -/
def insertMember (key : String) (value : Json) : List (String × Json) → List (String × Json)
  | [] => [(key, value)]
  | (k, v) :: rest =>
    if key < k then (key, value) :: (k, v) :: rest
    else if key = k then (key, value) :: rest
    else (k, v) :: insertMember key value rest

/-- The object with the given members, sorted by key. Of members with one key the last stands. -/
def ofMembers (members : List (String × Json)) : Json :=
  .object (members.foldl (fun ms (k, v) => insertMember k v ms) [])

/-- The member of an object, if the value is an object and has it. -/
def member? (j : Json) (key : String) : Option Json :=
  match j with
  | .object members => members.lookup key
  | _ => none

end Json

end JobQueue
