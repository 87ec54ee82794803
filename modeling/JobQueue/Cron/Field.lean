/-!
# Fields of a cron expression

A field is a list of items, and an item selects an arithmetic progression of the values of its unit
of time. Reading a field only follows the grammar; whether its numbers and names mean something in
the unit is decided afterwards.
-/

namespace JobQueue.Cron

/-! ## Units -/

/-- A unit of time: the values it ranges over, and the names that stand for some of them. -/
structure Unit where
  low : Nat
  high : Nat
  names : List (String × Nat) := []
deriving DecidableEq, Repr

namespace Unit

def second : Unit := ⟨0, 59, []⟩
def minute : Unit := ⟨0, 59, []⟩
def hour : Unit := ⟨0, 23, []⟩
def dayOfMonth : Unit := ⟨1, 31, []⟩

def month : Unit := ⟨1, 12, [
  ("jan", 1), ("january", 1), ("feb", 2), ("february", 2), ("mar", 3), ("march", 3),
  ("apr", 4), ("april", 4), ("may", 5), ("jun", 6), ("june", 6), ("jul", 7), ("july", 7),
  ("aug", 8), ("august", 8), ("sep", 9), ("september", 9), ("oct", 10), ("october", 10),
  ("nov", 11), ("november", 11), ("dec", 12), ("december", 12)]⟩

/-- Days of the week count from Sunday. -/
def dayOfWeek : Unit := ⟨1, 7, [
  ("sun", 1), ("sunday", 1), ("mon", 2), ("monday", 2), ("tue", 3), ("tues", 3), ("tuesday", 3),
  ("wed", 4), ("wednesday", 4), ("thu", 5), ("thurs", 5), ("thursday", 5), ("fri", 6),
  ("friday", 6), ("sat", 7), ("saturday", 7)]⟩

def year : Unit := ⟨1970, 2100, []⟩

/-- All values, in increasing order. -/
def values (u : Unit) : List Nat := List.range' u.low (u.high + 1 - u.low)

/-- The number, if it is a value of the unit. -/
def number? (u : Unit) (n : Nat) : Option Nat := if u.low ≤ n ∧ n ≤ u.high then some n else none

/-- The value that a name stands for, in any mix of cases. -/
def name? (u : Unit) (name : String) : Option Nat := u.names.lookup name.toLower

end Unit

/-! ## Items -/

/-- What an item starts from. -/
inductive Base
  | all
  | point (n : Nat)
  | range (first last : Nat)
  | namedRange (first last : String)
deriving DecidableEq, Repr

/-- One item of a field. -/
inductive Item
  | base (b : Base)
  | step (b : Base) (every : Nat)
  | named (name : String)
deriving DecidableEq, Repr

/-- The values `first, first + every, …` that do not exceed `last`. -/
structure Progression where
  first : Nat
  last : Nat
  every : Nat
deriving DecidableEq, Repr

def Progression.contains (p : Progression) (v : Nat) : Bool :=
  p.first ≤ v && v ≤ p.last && (v - p.first) % p.every == 0

/-- The ends of a base, which must not be reversed. -/
def Base.ends? (u : Unit) : Base → Option (Nat × Nat)
  | .all => some (u.low, u.high)
  | .point n => (u.number? n).map fun n => (n, n)
  | .range a b => do
    let a ← u.number? a
    let b ← u.number? b
    if a ≤ b then some (a, b) else none
  | .namedRange a b => do
    let a ← u.name? a
    let b ← u.name? b
    if a ≤ b then some (a, b) else none

/-- What an item selects. A single number with a step runs on to the end of the unit. -/
def Item.resolve? (u : Unit) : Item → Option Progression
  | .base b => (b.ends? u).map fun (a, z) => ⟨a, z, 1⟩
  | .step (.point n) every =>
    if every = 0 then none else (u.number? n).map fun n => ⟨n, u.high, every⟩
  | .step b every =>
    if every = 0 then none else (b.ends? u).map fun (a, z) => ⟨a, z, every⟩
  | .named name => (u.name? name).map fun n => ⟨n, n, 1⟩

/-- The values that a list of items selects, in increasing order. -/
def select? (u : Unit) (items : List Item) : Option (List Nat) := do
  let ps ← items.mapM (Item.resolve? u)
  some (u.values.filter fun v => ps.any (·.contains v))

/-! ## Grammar

Each reader takes characters from the front and returns what is left. An alternative is tried only
when the ones before it fail, and is not revisited once it was taken.
-/

def isBlank (c : Char) : Bool := c = ' ' || c = '\t' || c = '\r' || c = '\n'

def skipBlanks (cs : List Char) : List Char := cs.dropWhile isBlank

def isDigit (c : Char) : Bool := '0' ≤ c && c ≤ '9'

def isLetter (c : Char) : Bool := ('a' ≤ c && c ≤ 'z') || ('A' ≤ c && c ≤ 'Z')

/-- A number of at most 32 bits, with the blanks around it. -/
def readNumber (cs : List Char) : Option (Nat × List Char) :=
  let cs := skipBlanks cs
  let digits := cs.takeWhile isDigit
  let n := digits.foldl (fun n c => n * 10 + (c.toNat - 48)) 0
  if digits ≠ [] ∧ n < 4294967296 then some (n, skipBlanks (cs.dropWhile isDigit)) else none

/-- A name, with the blanks around it. -/
def readName (cs : List Char) : Option (String × List Char) :=
  let cs := skipBlanks cs
  let letters := cs.takeWhile isLetter
  if letters ≠ [] then some (String.ofList letters, skipBlanks (cs.dropWhile isLetter)) else none

/-- Two of a kind with a hyphen between them. -/
def readPair {α : Type} (read : List Char → Option (α × List Char)) (cs : List Char) :
    Option ((α × α) × List Char) := do
  let (a, cs) ← read cs
  match cs with
  | '-' :: cs =>
    let (b, cs) ← read cs
    some ((a, b), cs)
  | _ => none

/-- A base. The question mark is another way to write all values of a day field. -/
def readBase (days : Bool) (cs : List Char) : Option (Base × List Char) :=
  match days, cs with
  | true, '?' :: cs => some (.all, cs)
  | _, '*' :: cs => some (.all, cs)
  | _, cs =>
    ((readPair readNumber cs).map fun ((a, b), cs) => (.range a b, cs))
      <|> ((readNumber cs).map fun (n, cs) => (.point n, cs))
      <|> ((readPair readName cs).map fun ((a, b), cs) => (.namedRange a b, cs))

/-- A base with its step. -/
def readStep (days : Bool) (cs : List Char) : Option (Item × List Char) := do
  let (b, cs) ← readBase days cs
  match cs with
  | '/' :: cs =>
    let (every, cs) ← readNumber cs
    some (.step b every, cs)
  | _ => none

def readItem (days : Bool) (cs : List Char) : Option (Item × List Char) :=
  readStep days cs
    <|> ((readBase days cs).map fun (b, cs) => (.base b, cs))
    <|> ((readName cs).map fun (name, cs) => (.named name, cs))

/-- Further items after commas. A comma without an item behind it is left over. -/
def readMoreItems (days : Bool) : Nat → List Char → List Item × List Char
  | 0, cs => ([], cs)
  | fuel + 1, cs =>
    match cs with
    | ',' :: rest =>
      match readItem days rest with
      | some (item, rest) =>
        let (items, rest) := readMoreItems days fuel rest
        (item :: items, rest)
      | none => ([], cs)
    | _ => ([], cs)

/-- A field: items between commas, with the blanks around the list. -/
def readField (days : Bool) (cs : List Char) : Option (List Item × List Char) := do
  let (item, cs) ← readItem days (skipBlanks cs)
  let (items, cs) := readMoreItems days cs.length cs
  some (item :: items, skipBlanks cs)

/-- A field that means something in its unit. -/
def readValues (u : Unit) (days : Bool) (cs : List Char) : Option (List Nat × List Char) := do
  let (items, cs) ← readField days cs
  let values ← select? u items
  some (values, cs)

end JobQueue.Cron
