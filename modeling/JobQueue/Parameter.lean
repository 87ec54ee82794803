import JobQueue.Json.Reader

/-!
# Job parameters

A job carries its parameter as a JSON text. Each handler declares the type of its parameter; this
module holds these types, the values of each, how a value is written, and how a text is read as a
value of a type or refused with the reason and its place.
-/

namespace JobQueue

open Json (Reader ReadError Cause Cursor Closing)

/-- What a handler that acts on orders is told to do. -/
inductive Order
  | done
  | panic
  | error (message : String)
deriving DecidableEq, Inhabited

/-- A parameter of several fields, of which the note may be missing. -/
structure Record where
  id : UInt64
  tags : List String
  note : Option String
deriving DecidableEq, Inhabited

inductive ParameterType
  | text
  | order
  | optional
  | nothing
  | record
  | anything
deriving DecidableEq, Inhabited

inductive Parameter
  | text (value : String)
  | order (value : Order)
  | optional (value : Option UInt32)
  | nothing
  | record (value : Record)
  | anything (value : Json)
deriving Inhabited

/-! ## Written form -/

def Order.toJson : Order → Json
  | .done => .string "Done"
  | .panic => .string "Panic"
  | .error message => .object [("Error", .object [("error", .string message)])]

def Record.toJson (r : Record) : Json :=
  .object [
    ("id", Json.nat r.id.toNat),
    ("tags", .array (r.tags.map .string)),
    ("note", r.note.elim .null .string)]

def Parameter.toJson : Parameter → Json
  | .text s => .string s
  | .order o => o.toJson
  | .optional none => .null
  | .optional (some n) => Json.nat n.toNat
  | .nothing => .null
  | .record r => r.toJson
  | .anything j => j

/-- The text stored with a job. -/
def Parameter.encode (p : Parameter) : String := p.toJson.text

def Parameter.type : Parameter → ParameterType
  | .text _ => .text
  | .order _ => .order
  | .optional _ => .optional
  | .nothing => .nothing
  | .record _ => .record
  | .anything _ => .anything

/-! ## Readers of scalars -/

namespace Parameter

/-- The next character that is not a blank decides how a value is read, and has to exist. -/
def peekValue (c : Cursor) : Except ReadError (Char × Cursor) :=
  let c := c.skipBlanks
  match c.peek? with
  | none => c.failAhead .endOfValue
  | some x => .ok (x, c)

/-- Reads a string. -/
def readText (expected : String) : Reader String := fun c => do
  let (x, c) ← peekValue c
  if x = '"' then Json.readString c.next else Json.readOtherKind expected c

/-- Reads a natural number of at most `limit`. -/
def readNatural (limit : Nat) (expected : String) : Reader Nat := fun c => do
  let (x, c) ← peekValue c
  let check (n : Json.Number) (c : Cursor) : Except ReadError (Nat × Cursor) :=
    match n with
    | .float bits => c.fail (.invalidType (.float bits) expected)
    | .integer i =>
      if 0 ≤ i ∧ i ≤ limit then .ok (i.toNat, c) else c.fail (.invalidValue i expected)
  if x = '-' then
    let (n, c) ← Json.readNumber false c.next
    check n c
  else if (Json.digit? x).isSome then
    let (n, c) ← Json.readNumber true c
    check n c
  else Json.readOtherKind expected c

/-- Reads `null`. -/
def readNothing : Reader Unit := fun c => do
  let (x, c) ← peekValue c
  if x = 'n' then Json.readLetters ['u', 'l', 'l'] c.next else Json.readOtherKind "unit" c

/-- Reads `null` or a value. -/
def readOptional {α : Type} (value : Reader α) : Reader (Option α) := fun c => do
  let c := c.skipBlanks
  if c.peek? = some 'n' then
    let (_, c) ← Json.readLetters ['u', 'l', 'l'] c.next
    .ok (none, c)
  else
    let (v, c) ← value c
    .ok (some v, c)

/-- Reads an array of strings. -/
def readTexts : Reader (List String) := fun c => do
  let (x, c) ← peekValue c
  if x = '[' then Json.readArray (readText "a string") c.next
  else Json.readOtherKind "a sequence" c

/-! ## Fields -/

/-- What became of the fields between two brackets: a value, or a cause that has no place of its
own and is reported where the closing bracket was looked for. -/
abbrev Fields (α : Type) := Except Cause α × Cursor

/-- Ends the fields with their closing bracket. -/
def closeFields {α : Type} (close : Cursor → Closing) (fields : Except ReadError (Fields α)) :
    Except ReadError (α × Cursor) := do
  match ← fields with
  | (.error cause, c) => (close c).cursor.fail cause
  | (.ok v, c) =>
    match close c with
    | ⟨none, c⟩ => .ok (v, c)
    | ⟨some e, _⟩ => .error e

/-- Reads the next item of an array as a field, which has to be there. -/
def readItem {α : Type} (index : Nat) (whole : String) (field : Reader α) (c : Cursor) :
    Except ReadError (Fields α) := do
  let (more, c) ← Json.nextItem? (index = 0) c
  if more then
    let (v, c) ← field c
    .ok (.ok v, c)
  else .ok (.error (.invalidLength index whole), c)

/-- Continues with a field, if it was there. -/
def andThen {α β : Type} (field : Except ReadError (Fields α))
    (k : α → Cursor → Except ReadError (Fields β)) : Except ReadError (Fields β) := do
  match ← field with
  | (.error cause, c) => .ok (.error cause, c)
  | (.ok v, c) => k v c

/-! ## Records -/

/-- The fields of a record that were read so far. -/
structure PartialRecord where
  id : Option UInt64 := none
  tags : Option (List String) := none
  note : Option (Option String) := none

/-- The record, if no needed field is missing. -/
def PartialRecord.finish (p : PartialRecord) : Except Cause Record :=
  match p.id, p.tags with
  | none, _ => .error (.missingField "id")
  | some _, none => .error (.missingField "tags")
  | some id, some tags => .ok ⟨id, tags, p.note.getD none⟩

def readId : Reader UInt64 := fun c => do
  let (n, c) ← readNatural 18446744073709551615 "u64" c
  .ok (n.toUInt64, c)

def readNote : Reader (Option String) := readOptional (readText "a string")

/-- Reads the members of a record. Unknown members are skipped, a known one may come once. -/
def readRecordMembers : Nat → Bool → PartialRecord → Cursor → Except ReadError (Fields Record)
  | 0, _, _, c => c.failAhead .endOfObject
  | fuel + 1, first, p, c => do
    let (key?, c) ← Json.nextKey? first c
    match key? with
    | none => .ok (p.finish, c)
    | some key =>
      if key = "id" then
        if p.id.isSome then .ok (.error (.duplicateField key), c)
        else
          let (_, c) ← Json.readColon c
          let (v, c) ← readId c
          readRecordMembers fuel false { p with id := some v } c
      else if key = "tags" then
        if p.tags.isSome then .ok (.error (.duplicateField key), c)
        else
          let (_, c) ← Json.readColon c
          let (v, c) ← readTexts c
          readRecordMembers fuel false { p with tags := some v } c
      else if key = "note" then
        if p.note.isSome then .ok (.error (.duplicateField key), c)
        else
          let (_, c) ← Json.readColon c
          let (v, c) ← readNote c
          readRecordMembers fuel false { p with note := some v } c
      else
        let (_, c) ← Json.readColon c
        let (_, c) ← Json.skipValue c
        readRecordMembers fuel false p c

/-- Reads the fields of a record as the items of an array. -/
def readRecordItems (c : Cursor) : Except ReadError (Fields Record) :=
  let whole := "struct RecordParam with 3 elements"
  andThen (readItem 0 whole readId c) fun id c =>
  andThen (readItem 1 whole readTexts c) fun tags c =>
  andThen (readItem 2 whole readNote c) fun note c =>
  .ok (.ok ⟨id, tags, note⟩, c)

def readRecord : Reader Record := fun c => do
  let (x, c) ← peekValue c
  if x = '[' then closeFields Json.closeArray (readRecordItems c.next)
  else if x = '\x7b' then
    let c := c.next
    closeFields Json.closeObject (readRecordMembers (c.rest.length + 1) true {} c)
  else Json.readOtherKind "struct RecordParam" c

/-! ## Orders -/

/-- Reads the members of the content of an error order. -/
def readErrorMembers : Nat → Bool → Option String → Cursor → Except ReadError (Fields String)
  | 0, _, _, c => c.failAhead .endOfObject
  | fuel + 1, first, found, c => do
    let (key?, c) ← Json.nextKey? first c
    match key? with
    | none =>
      match found with
      | none => .ok (.error (.missingField "error"), c)
      | some message => .ok (.ok message, c)
    | some key =>
      if key = "error" then
        if found.isSome then .ok (.error (.duplicateField key), c)
        else
          let (_, c) ← Json.readColon c
          let (v, c) ← readText "a string" c
          readErrorMembers fuel false (some v) c
      else
        let (_, c) ← Json.readColon c
        let (_, c) ← Json.skipValue c
        readErrorMembers fuel false found c

/-- Reads the content of an error order. -/
def readErrorContent : Reader String := fun c => do
  let whole := "struct variant MockExecutionResult::Error"
  let (x, c) ← peekValue c
  if x = '[' then
    closeFields Json.closeArray (readItem 0 (whole ++ " with 1 element") (readText "a string") c.next)
  else if x = '\x7b' then
    let c := c.next
    closeFields Json.closeObject (readErrorMembers (c.rest.length + 1) true none c)
  else Json.readOtherKind whole c

/-- The names that start an order. -/
inductive OrderName
  | done
  | panic
  | error

/-- Reads the name of an order. -/
def readOrderName : Reader OrderName := fun c => do
  let (name, c) ← readText "variant identifier" c
  if name = "Done" then .ok (.done, c)
  else if name = "Panic" then .ok (.panic, c)
  else if name = "Error" then .ok (.error, c)
  else c.fail (.unknownVariant name ["Done", "Panic", "Error"])

/-- Reads an order: a bare name, or a name with its content as the only member of an object. -/
def readOrder : Reader Order := fun c => do
  let (x, c) ← peekValue c
  if x = '"' then
    match ← readOrderName c with
    | (.done, c) => .ok (.done, c)
    | (.panic, c) => .ok (.panic, c)
    | (.error, _) => .error ⟨.invalidType .bareVariant "struct variant", none⟩
  else if x = '\x7b' then
    let (name, c) ← readOrderName c.next
    let (_, c) ← Json.readColon c
    let (result, c) ← match name with
      | .done => do
        let (_, c) ← readNothing c
        .ok (Order.done, c)
      | .panic => do
        let (_, c) ← readNothing c
        .ok (Order.panic, c)
      | .error => do
        let (message, c) ← readErrorContent c
        .ok (Order.error message, c)
    let c := c.skipBlanks
    match c.peek? with
    | some '\x7d' => .ok (result, c.next)
    | some _ => c.fail .expectedValue
    | none => c.fail .endOfObject
  else c.failAhead .expectedValue

end Parameter

/-! ## Reading by type -/

/-- The reader of a type. -/
def ParameterType.reader (t : ParameterType) : Reader Parameter := fun c => do
  match t with
  | .text =>
    let (s, c) ← Parameter.readText "a string" c
    .ok (.text s, c)
  | .order =>
    let (o, c) ← Parameter.readOrder c
    .ok (.order o, c)
  | .optional =>
    let (n, c) ← Parameter.readOptional (Parameter.readNatural 4294967295 "u32") c
    .ok (.optional (n.map Nat.toUInt32), c)
  | .nothing =>
    let (_, c) ← Parameter.readNothing c
    .ok (.nothing, c)
  | .record =>
    let (r, c) ← Parameter.readRecord c
    .ok (.record r, c)
  | .anything =>
    let (j, c) ← Json.readValue Json.depthLimit c
    .ok (.anything j, c)

/-- Reads a whole text as a parameter of the type. -/
def ParameterType.decode (t : ParameterType) (s : String) : Except ReadError Parameter :=
  Json.readAll t.reader s

end JobQueue
