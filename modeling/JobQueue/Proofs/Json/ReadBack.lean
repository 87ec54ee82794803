import JobQueue.Json.Reader
import Mathlib.Data.List.Basic

/-!
# Reading back what was written

A reader reads back a written form if it consumes just that, whatever follows. Strings are read back
from their escaped form, character by character, and natural numbers from their digits.
-/

namespace JobQueue.Json

variable {α : Type} {p : Position} {x : Char} {rest xs : List Char}

/-- The reader gives the value for the written form, and leaves what follows. -/
def Reads (r : Reader α) (written : List Char) (a : α) : Prop :=
  ∀ rest p, ∃ p', r ⟨written ++ rest, p⟩ = .ok (a, ⟨rest, p'⟩)

/-! ## 1. Moving on -/

@[simp] theorem ok_bind {ε β γ : Type} (b : β) (k : β → Except ε γ) :
    (Except.ok b >>= k) = k b := rfl

@[simp] theorem peek?_cons : Cursor.peek? ⟨x :: xs, p⟩ = some x := rfl

@[simp] theorem next_cons : Cursor.next ⟨x :: xs, p⟩ = ⟨xs, p.after x⟩ := rfl

theorem skipBlanks_cons (h : Cursor.isBlank x = false) :
    Cursor.skipBlanks ⟨x :: xs, p⟩ = ⟨x :: xs, p⟩ := by
  simp [Cursor.skipBlanks, Cursor.skipBlanks.go, h]

/-- A text is read as a value if the reader gives the value and leaves nothing. -/
theorem readAll_eq_ok {r : Reader α} {cs : List Char} {a : α}
    (h : ∃ p', r ⟨cs, ⟨1, 0⟩⟩ = .ok (a, ⟨[], p'⟩)) : readAll r (String.ofList cs) = .ok a := by
  obtain ⟨p', hr⟩ := h
  unfold readAll Cursor.ofText
  rw [String.toList_ofList, hr]
  rfl

/-! ## 2. Escapes -/

theorem hexValue?_digitChar : ∀ n < 16, readHex4.hexValue? (Nat.digitChar n) = some n := by
  decide

theorem utf8Size_digitChar : ∀ n < 16, (Nat.digitChar n).utf8Size = 1 := by
  decide

theorem readHex4_reads {n : Nat} (h : n < 0x100) :
    Reads readHex4 ['0', '0', Nat.digitChar (n / 16), Nat.digitChar (n % 16)] n := by
  intro rest p
  have hhigh : n / 16 < 16 := by omega
  have hlow : n % 16 < 16 := by omega
  have hbytes : ['0', '0', Nat.digitChar (n / 16), Nat.digitChar (n % 16)].foldl
      (fun k x => k + x.utf8Size) 0 = 4 := by
    simp only [List.foldl_cons, List.foldl_nil, utf8Size_digitChar _ hhigh,
      utf8Size_digitChar _ hlow]
    rfl
  have hvalues : ['0', '0', Nat.digitChar (n / 16), Nat.digitChar (n % 16)].mapM
      readHex4.hexValue? = some [0, 0, n / 16, n % 16] := by
    simp only [List.mapM_cons, List.mapM_nil, hexValue?_digitChar _ hhigh,
      hexValue?_digitChar _ hlow]
    rfl
  have hvalue : ((0 * 16 + 0) * 16 + n / 16) * 16 + n % 16 = n := by omega
  refine ⟨(((p.after '0').after '0').after (Nat.digitChar (n / 16))).after
    (Nat.digitChar (n % 16)), ?_⟩
  unfold readHex4
  simp only [List.cons_append, List.nil_append, List.take_succ_cons, List.take_zero, hbytes,
    hvalues, hvalue, Nat.lt_irrefl, if_false]
  rfl

theorem readEscape_control {c : Char} (h : c.toNat < 0x20) :
    Reads readEscape ['u', '0', '0', Nat.digitChar (c.toNat / 16), Nat.digitChar (c.toNat % 16)]
      c := by
  intro rest p
  obtain ⟨p', hhex⟩ := readHex4_reads (n := c.toNat) (by omega) rest (p.after 'u')
  have hlone : ¬ (0xDC00 ≤ c.toNat ∧ c.toNat ≤ 0xDFFF) := by omega
  have hplain : c.toNat < 0xD800 ∨ 0xDBFF < c.toNat := by omega
  refine ⟨p', ?_⟩
  show (readHex4 ⟨['0', '0', Nat.digitChar (c.toNat / 16), Nat.digitChar (c.toNat % 16)] ++ rest,
    p.after 'u'⟩ >>= _) = _
  rw [hhex]
  show (if 0xDC00 ≤ c.toNat ∧ c.toNat ≤ 0xDFFF then _ else if c.toNat < 0xD800 ∨ 0xDBFF < c.toNat
    then _ else _) = _
  rw [if_neg hlone, if_pos hplain, Char.ofNat_toNat]

/-- A character is written as it is, or as an escape that is read back as the character. -/
theorem escapeChar_cases (c : Char) :
    (c ≠ '"' ∧ c ≠ '\\' ∧ 0x20 ≤ c.toNat ∧ escapeChar c = [c]) ∨
      ∃ e, escapeChar c = '\\' :: e ∧ Reads readEscape e c := by
  unfold escapeChar
  split
  · exact .inr ⟨_, rfl, fun rest p => ⟨_, rfl⟩⟩
  · exact .inr ⟨_, rfl, fun rest p => ⟨_, rfl⟩⟩
  · exact .inr ⟨_, rfl, fun rest p => ⟨_, rfl⟩⟩
  · exact .inr ⟨_, rfl, fun rest p => ⟨_, rfl⟩⟩
  · exact .inr ⟨_, rfl, fun rest p => ⟨_, rfl⟩⟩
  · exact .inr ⟨_, rfl, fun rest p => ⟨_, rfl⟩⟩
  · exact .inr ⟨_, rfl, fun rest p => ⟨_, rfl⟩⟩
  · rename_i hquote hbackslash _ _ _ _ _
    by_cases hcontrol : c.toNat < 0x20
    · rw [if_pos hcontrol]
      exact .inr ⟨_, rfl, readEscape_control hcontrol⟩
    · rw [if_neg hcontrol]
      exact .inl ⟨hquote, hbackslash, by omega, rfl⟩

/-! ## 3. Strings -/

theorem readChars_plain {c : Char} (hquote : c ≠ '"') (hbackslash : c ≠ '\\')
    (hprintable : 0x20 ≤ c.toNat) (fuel : Nat) (acc : List Char) :
    readChars (fuel + 1) acc ⟨c :: xs, p⟩ = readChars fuel (c :: acc) ⟨xs, p.after c⟩ := by
  rw [readChars]
  simp only [peek?_cons, next_cons]
  rw [if_neg (by omega)]

theorem readChars_escape {e : List Char} {c : Char} (h : Reads readEscape e c) (fuel : Nat)
    (acc : List Char) :
    ∃ p', readChars (fuel + 1) acc ⟨'\\' :: (e ++ xs), p⟩ = readChars fuel (c :: acc) ⟨xs, p'⟩ := by
  obtain ⟨p', hread⟩ := h xs (p.after '\\')
  refine ⟨p', ?_⟩
  show (readEscape ⟨e ++ xs, p.after '\\'⟩ >>= _) = _
  rw [hread]
  rfl

/-- Each round reads the character of a string that is next, so there are enough rounds for it. -/
theorem readChars_reads (cs : List Char) : ∀ (fuel : Nat) (acc : List Char), cs.length < fuel →
    Reads (readChars fuel acc) (cs.flatMap escapeChar ++ ['"']) (acc.reverse ++ cs) := by
  induction cs with
  | nil =>
    intro fuel acc hfuel rest p
    obtain ⟨fuel, rfl⟩ := Nat.exists_eq_succ_of_ne_zero (Nat.ne_of_gt hfuel)
    refine ⟨p.after '"', ?_⟩
    rw [List.append_nil]
    rfl
  | cons c cs ih =>
    intro fuel acc hfuel rest p
    obtain ⟨fuel, rfl⟩ := Nat.exists_eq_succ_of_ne_zero (Nat.ne_of_gt (Nat.zero_lt_of_lt hfuel))
    have hnext := ih fuel (c :: acc) (Nat.lt_of_succ_lt_succ hfuel) rest
    rw [List.reverse_cons, List.append_assoc _ [c], List.singleton_append, List.append_assoc]
      at hnext
    rw [List.flatMap_cons, List.append_assoc, List.append_assoc]
    rcases escapeChar_cases c with ⟨hquote, hbackslash, hprintable, hplain⟩ | ⟨e, hescape, hread⟩
    · rw [hplain, List.singleton_append]
      obtain ⟨p', h⟩ := hnext (p.after c)
      exact ⟨p', (readChars_plain hquote hbackslash hprintable fuel acc).trans h⟩
    · rw [hescape]
      obtain ⟨p₁, hstep⟩ := readChars_escape hread fuel acc
      obtain ⟨p', h⟩ := hnext p₁
      exact ⟨p', hstep.trans h⟩

theorem length_le_flatMap_escapeChar (cs : List Char) :
    cs.length ≤ (cs.flatMap escapeChar).length := by
  induction cs with
  | nil => exact Nat.le_refl 0
  | cons c cs ih =>
    have hone : 1 ≤ (escapeChar c).length := by
      rcases escapeChar_cases c with ⟨-, -, -, h⟩ | ⟨e, h, -⟩ <;> simp [h]
    rw [List.flatMap_cons, List.length_append, List.length_cons]
    omega

theorem readString_reads (s : String) :
    Reads readString (s.toList.flatMap escapeChar ++ ['"']) s := by
  intro rest p
  have hfuel : s.toList.length < (s.toList.flatMap escapeChar ++ ['"'] ++ rest).length + 1 := by
    have := length_le_flatMap_escapeChar s.toList
    simp only [List.length_append]
    omega
  obtain ⟨p', h⟩ := readChars_reads s.toList _ [] hfuel rest p
  refine ⟨p', ?_⟩
  show (readChars _ [] ⟨s.toList.flatMap escapeChar ++ ['"'] ++ rest, p⟩ >>= _) = _
  rw [h]
  show Except.ok (String.ofList s.toList, _) = _
  rw [String.ofList_toList]

/-! ## 4. Natural numbers -/

theorem digit?_digitChar : ∀ n < 10, digit? (Nat.digitChar n) = some n := by
  decide

/-- What follows a number that is read back: nothing that could belong to it. -/
def EndsNumber (rest : List Char) : Prop :=
  ∀ x ∈ rest.head?, digit? x = none ∧ x ≠ '.' ∧ x ≠ 'e' ∧ x ≠ 'E'

theorem readDigits_toDigits {limit : Nat} (n : Nat) : ∀ (count : Nat) (rest : List Char)
    (p : Position), n ≤ limit → ∃ count' p',
      readDigits limit 0 count (Nat.toDigits 10 n ++ rest) p = readDigits limit n count' rest p' := by
  induction n using Nat.strongRecOn with
  | ind n ih =>
    intro count rest p hn
    by_cases hsmall : n < 10
    · refine ⟨count + 1, p.after (Nat.digitChar n), ?_⟩
      rw [Nat.toDigits_of_lt_base hsmall, List.singleton_append, readDigits,
        digit?_digitChar n hsmall]
      simp only [Nat.zero_mul, Nat.zero_add, hn, if_true]
    · -- all digits but the last one are those of a tenth of the number
      obtain ⟨count', p', h⟩ := ih (n / 10) (by omega) count
        (Nat.digitChar (n % 10) :: rest) p (by omega)
      refine ⟨count' + 1, p'.after (Nat.digitChar (n % 10)), ?_⟩
      have hvalue : n / 10 * 10 + n % 10 = n := by omega
      rw [Nat.toDigits_of_base_le (by omega) (by omega), List.append_assoc, List.singleton_append, h,
        readDigits, digit?_digitChar _ (by omega)]
      simp only [hvalue, hn, if_true]

theorem readDigits_stop (h : EndsNumber rest) (limit n count : Nat) (p : Position) :
    readDigits limit n count rest p = ((n, count, false), ⟨rest, p⟩) := by
  cases rest with
  | nil => rfl
  | cons x xs => rw [readDigits, (h x rfl).1]

theorem toDigits_eq_cons (n : Nat) :
    ∃ x xs d, Nat.toDigits 10 n = x :: xs ∧ digit? x = some d ∧ d < 10 ∧ (0 < n → d ≠ 0) := by
  induction n using Nat.strongRecOn with
  | ind n ih =>
    by_cases hsmall : n < 10
    · exact ⟨_, [], n, Nat.toDigits_of_lt_base hsmall, digit?_digitChar n hsmall, hsmall,
        Nat.ne_of_gt⟩
    · obtain ⟨x, xs, d, hdigits, hd, hlt, hne⟩ := ih (n / 10) (by omega)
      refine ⟨x, xs ++ [Nat.digitChar (n % 10)], d, ?_, hd, hlt, fun _ => hne (by omega)⟩
      rw [Nat.toDigits_of_base_le (by omega) (by omega), hdigits, List.cons_append]

/-- The first digit of a number is no zero that others follow, and from it the others are read. -/
theorem readDigits_leading {n : Nat} (hn : n ≤ maxNatural) (hrest : EndsNumber rest)
    (p : Position) :
    ∃ x xs d count p', Nat.toDigits 10 n = x :: xs ∧ digit? x = some d ∧
      ¬ (d = 0 ∧ ((Cursor.peek? ⟨xs ++ rest, p.after x⟩).bind digit?).isSome) ∧
      (if d = 0 then ((0, 1, false), (⟨xs ++ rest, p.after x⟩ : Cursor))
        else readDigits maxNatural d 1 (xs ++ rest) (p.after x)) =
        ((n, count, false), ⟨rest, p'⟩) := by
  obtain ⟨x, xs, d, hdigits, hd, hlt, hne⟩ := toDigits_eq_cons n
  by_cases hzero : d = 0
  · have hn : n = 0 := Nat.eq_zero_of_not_pos fun hpos => hne hpos hzero
    subst hn
    cases hdigits
    refine ⟨'0', [], d, 1, p.after '0', rfl, hd, ?_, if_pos hzero⟩
    cases rest with
    | nil => simp [Cursor.peek?]
    | cons y ys => simp [(hrest y rfl).1]
  · obtain ⟨count, p', hall⟩ := readDigits_toDigits n 0 rest p hn
    have hfits : d ≤ maxNatural := by
      unfold maxNatural
      omega
    rw [hdigits, List.cons_append, readDigits, hd, readDigits_stop hrest] at hall
    simp only [hfits, if_true, Nat.zero_mul, Nat.zero_add] at hall
    exact ⟨x, xs, d, count, p', hdigits, hd, fun h => hzero h.1, (if_neg hzero).trans hall⟩

/-- A natural number is read back from its digits, unless it is too large to keep all of them. -/
theorem readNumber_toDigits {n : Nat} (hn : n ≤ maxNatural) (hrest : EndsNumber rest)
    (p : Position) :
    ∃ p', readNumber true ⟨Nat.toDigits 10 n ++ rest, p⟩ = .ok (.integer n, ⟨rest, p'⟩) := by
  obtain ⟨x, xs, d, count, p', hdigits, hd, hlone, hall⟩ := readDigits_leading hn hrest p
  refine ⟨p', ?_⟩
  unfold readNumber
  simp only [hdigits, List.cons_append, peek?_cons, next_cons, hd, hlone, if_false, hall,
    Bool.false_eq_true]
  -- where the digits end, the number ends
  split
  · rename_i hpoint
    exact absurd rfl (hrest _ hpoint).2.1
  · rename_i hexponent
    exact absurd rfl (hrest _ hexponent).2.2.1
  · rename_i hexponent
    exact absurd rfl (hrest _ hexponent).2.2.2
  · rfl

end JobQueue.Json
