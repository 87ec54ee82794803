/-!
# Identifiers

Jobs, sequences and workers are named by 128-bit identifiers, written as 32 lower case hexadecimal
digits in five groups. Each kind of identifier is a type of its own.
-/

namespace JobQueue

/-- A 128-bit identifier. -/
structure Uuid where
  bits : BitVec 128
deriving DecidableEq, Inhabited

namespace Uuid

def ofNat (n : Nat) : Uuid := ⟨BitVec.ofNat 128 n⟩

def toNat (u : Uuid) : Nat := u.bits.toNat

/-- The lower case hexadecimal digit of a number below 16. -/
def hexDigit (n : Nat) : Char := Char.ofNat (if n < 10 then 48 + n else 87 + n)

/-- The last `count` hexadecimal digits of a number, most significant first. -/
def hexDigits (n : Nat) : Nat → List Char
  | 0 => []
  | count + 1 => hexDigits (n / 16) count ++ [hexDigit (n % 16)]

/-- Cuts a text into pieces of the given lengths. -/
def cut : List Nat → List Char → List (List Char)
  | [], _ => []
  | n :: ns, cs => cs.take n :: cut ns (cs.drop n)

/-- The lengths of the five groups of digits. -/
def groups : List Nat := [8, 4, 4, 4, 12]

/-- The written form, for example `00000000-0000-0000-0000-000000000001`. -/
def text (u : Uuid) : String :=
  String.ofList (List.intercalate ['-'] (cut groups (hexDigits u.toNat 32)))

/-- The value of a hexadecimal digit of either case. -/
def hexValue? (c : Char) : Option Nat :=
  if '0' ≤ c ∧ c ≤ '9' then some (c.toNat - 48)
  else if 'a' ≤ c ∧ c ≤ 'f' then some (c.toNat - 87)
  else if 'A' ≤ c ∧ c ≤ 'F' then some (c.toNat - 55)
  else none

/-- Reads the five groups with hyphens between them, or the 32 digits alone. -/
def ofText? (s : String) : Option Uuid :=
  let cs := s.toList
  let digits := cs.filter (· ≠ '-')
  let placed := cs.length = 32 ∨
    cs = List.intercalate ['-'] (cut groups digits)
  if digits.length = 32 ∧ placed then
    (digits.mapM hexValue?).map fun ds => ofNat (ds.foldl (fun acc d => acc * 16 + d) 0)
  else none

end Uuid

structure JobId where
  uuid : Uuid
deriving DecidableEq, Inhabited

structure SequenceId where
  uuid : Uuid
deriving DecidableEq, Inhabited

structure WorkerId where
  uuid : Uuid
deriving DecidableEq, Inhabited

def JobId.display (id : JobId) : String := "JobId(" ++ id.uuid.text ++ ")"
def SequenceId.display (id : SequenceId) : String := "SequenceId(" ++ id.uuid.text ++ ")"
def WorkerId.display (id : WorkerId) : String := "WorkerId(" ++ id.uuid.text ++ ")"

end JobQueue
