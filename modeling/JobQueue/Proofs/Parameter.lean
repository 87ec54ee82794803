import JobQueue.Handler.Catalog
import JobQueue.Proofs.Draft
import JobQueue.Proofs.Json.ReadBack
import JobQueue.Proofs.Registry

/-!
# Parameters travel

A parameter is stored with its job as a text, and read again when a worker resolves the job. What is
read is what was written, whatever the parameter says.
-/

namespace JobQueue

open Json (Reads Reader Cursor Position)

variable {p : Position} {rest : List Char}

/-! ## 1. Strings and numbers -/

namespace Parameter

theorem peekValue_cons {x : Char} {xs : List Char} (h : Cursor.isBlank x = false) :
    peekValue ⟨x :: xs, p⟩ = .ok (x, ⟨x :: xs, p⟩) := by
  unfold peekValue
  rw [Json.skipBlanks_cons h]
  rfl

theorem readText_reads (expected s : String) : Reads (readText expected) (Json.writeString s) s := by
  intro rest p
  obtain ⟨p', h⟩ := Json.readString_reads s rest (p.after '"')
  refine ⟨p', ?_⟩
  show Json.readString ⟨s.toList.flatMap Json.escapeChar ++ ['"'] ++ rest, p.after '"'⟩ = _
  exact h

theorem write_nat (n : Nat) : (Json.nat n).write = Nat.toDigits 10 n := by
  show (toString (n : Int)).toList = _
  show (toString n).toList = _
  simp

theorem ne_of_digit {x y : Char} {d : Nat} (h : Json.digit? x = some d)
    (hy : Json.digit? y = none) : x ≠ y := by
  rintro rfl
  rw [hy] at h
  nomatch h

theorem isBlank_of_digit {x : Char} {d : Nat} (h : Json.digit? x = some d) :
    Cursor.isBlank x = false := by
  simp [Cursor.isBlank, ne_of_digit h (show Json.digit? ' ' = none by decide),
    ne_of_digit h (show Json.digit? '\n' = none by decide),
    ne_of_digit h (show Json.digit? '\t' = none by decide),
    ne_of_digit h (show Json.digit? '\r' = none by decide)]

theorem readNatural_digits {n limit : Nat} (hn : n ≤ limit) (hlimit : limit ≤ Json.maxNatural)
    (expected : String) (hrest : Json.EndsNumber rest) (p : Position) :
    ∃ p', readNatural limit expected ⟨Nat.toDigits 10 n ++ rest, p⟩ = .ok (n, ⟨rest, p'⟩) := by
  obtain ⟨p', hread⟩ := Json.readNumber_toDigits (Nat.le_trans hn hlimit) hrest p
  obtain ⟨x, xs, d, hdigits, hd, -⟩ := Json.toDigits_eq_cons n
  rw [hdigits, List.cons_append] at hread ⊢
  have hminus : x ≠ '-' := ne_of_digit hd (by decide)
  have hrange : (0 : Int) ≤ n ∧ (n : Int) ≤ limit := by omega
  refine ⟨p', ?_⟩
  unfold readNatural
  rw [peekValue_cons (isBlank_of_digit hd)]
  show (if x = '-' then _ else if (Json.digit? x).isSome then
    Json.readNumber true ⟨x :: (xs ++ rest), p⟩ >>= _ else _) = _
  rw [if_neg hminus, hd, Option.isSome_some, if_pos rfl, hread]
  show (if (0 : Int) ≤ n ∧ (n : Int) ≤ limit then _ else _) = _
  rw [if_pos hrange]
  rfl

/-- The digits of a number start no `null`. -/
theorem readOptional_digits {n limit : Nat} (hn : n ≤ limit) (hlimit : limit ≤ Json.maxNatural)
    (expected : String) (hrest : Json.EndsNumber rest) (p : Position) :
    ∃ p', readOptional (readNatural limit expected) ⟨Nat.toDigits 10 n ++ rest, p⟩ =
      .ok (some n, ⟨rest, p'⟩) := by
  obtain ⟨p', hread⟩ := readNatural_digits hn hlimit expected hrest p
  obtain ⟨x, xs, d, hdigits, hd, -⟩ := Json.toDigits_eq_cons n
  rw [hdigits, List.cons_append] at hread ⊢
  have hnull : some x ≠ some 'n' := fun h => ne_of_digit hd (by decide) (Option.some.inj h)
  refine ⟨p', ?_⟩
  unfold readOptional
  simp only [Json.skipBlanks_cons (isBlank_of_digit hd), Json.peek?_cons, hnull, if_false, hread]
  rfl

/-! ## 2. Orders -/

theorem nextKey?_reads (key : String) :
    Reads (Json.nextKey? true) (Json.writeString key) (some key) := by
  intro rest p
  obtain ⟨p', h⟩ := Json.readString_reads key rest (p.after '"')
  refine ⟨p', ?_⟩
  show (Json.readString ⟨key.toList.flatMap Json.escapeChar ++ ['"'] ++ rest, p.after '"'⟩ >>= _) = _
  rw [h]
  rfl

theorem readErrorMembers_reads (message : String) {fuel : Nat} (hfuel : 2 ≤ fuel)
    (rest : List Char) (p : Position) :
    ∃ p', readErrorMembers fuel true none ⟨Json.writeString "error" ++ ':' ::
        (Json.writeString message ++ '\x7d' :: rest), p⟩ =
      .ok (.ok message, ⟨'\x7d' :: rest, p'⟩) := by
  obtain ⟨k, rfl⟩ : ∃ k, fuel = k + 2 := ⟨fuel - 2, by omega⟩
  obtain ⟨p₁, hkey⟩ := nextKey?_reads "error" (':' :: (Json.writeString message ++ '\x7d' :: rest)) p
  have hcolon : Json.readColon ⟨':' :: (Json.writeString message ++ '\x7d' :: rest), p₁⟩ =
      .ok ((), ⟨Json.writeString message ++ '\x7d' :: rest, p₁.after ':'⟩) := rfl
  obtain ⟨p', hvalue⟩ := readText_reads "a string" message ('\x7d' :: rest) (p₁.after ':')
  refine ⟨p', ?_⟩
  rw [readErrorMembers, hkey]
  simp only [Json.ok_bind, if_true, Option.isSome_none, Bool.false_eq_true, if_false, hcolon, hvalue]
  rfl

theorem readErrorContent_reads (message : String) :
    Reads readErrorContent
      ('\x7b' :: (Json.writeString "error" ++ ':' :: (Json.writeString message ++ ['\x7d'])))
      message := by
  intro rest p
  have hwritten : ('\x7b' :: (Json.writeString "error" ++ ':' ::
      (Json.writeString message ++ ['\x7d']))) ++ rest = '\x7b' ::
      (Json.writeString "error" ++ ':' :: (Json.writeString message ++ '\x7d' :: rest)) := by
    simp
  have hfuel : 2 ≤ (Json.writeString "error" ++ ':' ::
      (Json.writeString message ++ '\x7d' :: rest)).length + 1 := by
    simp only [List.length_append, List.length_cons]
    omega
  obtain ⟨p', hmembers⟩ := readErrorMembers_reads message hfuel rest (p.after '\x7b')
  refine ⟨p'.after '\x7d', ?_⟩
  have hother : '\x7b' ≠ '[' := by decide
  unfold readErrorContent
  rw [hwritten, peekValue_cons (by decide)]
  simp only [Json.ok_bind, hother, if_false, if_true, Json.next_cons, hmembers]
  rfl

/-- The name of an order, alone or as the key of its content. -/
theorem readOrderName_reads {name : String} {n : OrderName}
    (h : (name = "Done" ∧ n = .done) ∨ (name = "Panic" ∧ n = .panic) ∨
      (name = "Error" ∧ n = .error)) :
    Reads readOrderName (Json.writeString name) n := by
  intro rest p
  obtain ⟨p', hname⟩ := readText_reads "variant identifier" name rest p
  refine ⟨p', ?_⟩
  unfold readOrderName
  rw [hname]
  rcases h with ⟨rfl, rfl⟩ | ⟨rfl, rfl⟩ | ⟨rfl, rfl⟩ <;> rfl

theorem write_error (message : String) :
    (Order.error message).toJson.write = '\x7b' :: (Json.writeString "Error" ++ ':' ::
      ('\x7b' :: (Json.writeString "error" ++ ':' :: (Json.writeString message ++ ['\x7d']))) ++
      ['\x7d']) := by
  simp [Order.toJson, Json.write, Json.write.writeMembers, Json.commaSeparated]

theorem readOrder_bare {xs : List Char} {p' : Position} {n : OrderName} {o : Order}
    (h : readOrderName ⟨'"' :: xs, p⟩ = .ok (n, ⟨rest, p'⟩))
    (ho : (n = .done ∧ o = .done) ∨ (n = .panic ∧ o = .panic)) :
    readOrder ⟨'"' :: xs, p⟩ = .ok (o, ⟨rest, p'⟩) := by
  unfold readOrder
  rw [peekValue_cons (by decide)]
  simp only [Json.ok_bind, if_true, h]
  rcases ho with ⟨rfl, rfl⟩ | ⟨rfl, rfl⟩ <;> rfl

theorem readOrder_reads (o : Order) : Reads readOrder o.toJson.write o := by
  intro rest p
  cases o with
  | done =>
    obtain ⟨p', h⟩ := readOrderName_reads (.inl ⟨rfl, rfl⟩) rest p
    exact ⟨p', readOrder_bare h (.inl ⟨rfl, rfl⟩)⟩
  | panic =>
    obtain ⟨p', h⟩ := readOrderName_reads (.inr (.inl ⟨rfl, rfl⟩)) rest p
    exact ⟨p', readOrder_bare h (.inr ⟨rfl, rfl⟩)⟩
  | error message =>
    have hother : '\x7b' ≠ '"' := by decide
    rw [write_error]
    -- the content is read as a whole, between the colon and the brace that ends the order
    generalize hcontent : '\x7b' :: (Json.writeString "error" ++ ':' ::
      (Json.writeString message ++ ['\x7d'])) = content
    have hwritten : ('\x7b' :: (Json.writeString "Error" ++ ':' :: content ++ ['\x7d'])) ++ rest =
        '\x7b' :: (Json.writeString "Error" ++ ':' :: (content ++ '\x7d' :: rest)) := by simp
    obtain ⟨p₁, hname⟩ := readOrderName_reads (.inr (.inr ⟨rfl, rfl⟩))
      (':' :: (content ++ '\x7d' :: rest)) (p.after '\x7b')
    have hcolon : Json.readColon ⟨':' :: (content ++ '\x7d' :: rest), p₁⟩ =
        .ok ((), ⟨content ++ '\x7d' :: rest, p₁.after ':'⟩) := rfl
    have hread := readErrorContent_reads message
    rw [hcontent] at hread
    obtain ⟨p', hmessage⟩ := hread ('\x7d' :: rest) (p₁.after ':')
    refine ⟨p'.after '\x7d', ?_⟩
    unfold readOrder
    rw [hwritten, peekValue_cons (by decide)]
    simp only [Json.ok_bind, hother, if_false, if_true, Json.next_cons, hname, hcolon, hmessage]
    rfl

end Parameter

/-! ## 3. Types -/

/-- Strings, orders, optional numbers and nothing, but no records and no values of any kind. -/
def ParameterType.Plain : ParameterType → Prop
  | .text => True
  | .order => True
  | .optional => True
  | .nothing => True
  | .record => False
  | .anything => False

theorem decode_encode {v : Parameter} (h : v.type.Plain) : v.type.decode v.encode = .ok v := by
  apply Json.readAll_eq_ok
  cases v with
  | text s =>
    obtain ⟨p', hread⟩ := Parameter.readText_reads "a string" s [] ⟨1, 0⟩
    rw [List.append_nil] at hread
    refine ⟨p', ?_⟩
    show (Parameter.readText "a string" ⟨Json.writeString s, ⟨1, 0⟩⟩ >>= _) = _
    rw [hread]
    rfl
  | order o =>
    obtain ⟨p', hread⟩ := Parameter.readOrder_reads o [] ⟨1, 0⟩
    rw [List.append_nil] at hread
    refine ⟨p', ?_⟩
    show (Parameter.readOrder ⟨o.toJson.write, ⟨1, 0⟩⟩ >>= _) = _
    rw [hread]
    rfl
  | optional v =>
    cases v with
    | none => exact ⟨_, rfl⟩
    | some n =>
      have hn : n.toNat ≤ 4294967295 := Nat.le_of_lt_succ n.toNat_lt
      have hend : Json.EndsNumber [] := nofun
      obtain ⟨p', hread⟩ := Parameter.readOptional_digits hn (by decide) "u32" hend ⟨1, 0⟩
      rw [List.append_nil] at hread
      refine ⟨p', ?_⟩
      show (Parameter.readOptional (Parameter.readNatural 4294967295 "u32")
        ⟨(Json.nat n.toNat).write, ⟨1, 0⟩⟩ >>= _) = _
      rw [Parameter.write_nat, hread]
      show Except.ok (Parameter.optional (some n.toNat.toUInt32), _) = _
      rw [Nat.toUInt32_eq, UInt32.ofNat_toNat]
  | nothing => exact ⟨_, rfl⟩
  | record r => exact h.elim
  | anything j => exact h.elim

/-- Only what may be missing is read from `null`. -/
theorem decode_null_iff {t : ParameterType} (h : t.Plain) {v : Parameter} :
    t.decode Draft.noParameter = .ok v ↔
      (t = .optional ∧ v = .optional none) ∨ (t = .nothing ∧ v = .nothing) := by
  cases t with
  | text =>
    have hrefused : ∃ e, ParameterType.text.decode Draft.noParameter = .error e := ⟨_, rfl⟩
    obtain ⟨e, he⟩ := hrefused
    simp [he]
  | order =>
    have hrefused : ∃ e, ParameterType.order.decode Draft.noParameter = .error e := ⟨_, rfl⟩
    obtain ⟨e, he⟩ := hrefused
    simp [he]
  | optional =>
    have hread : ParameterType.optional.decode Draft.noParameter = .ok (.optional none) := rfl
    simp [hread, eq_comm]
  | nothing =>
    have hread : ParameterType.nothing.decode Draft.noParameter = .ok .nothing := rfl
    simp [hread, eq_comm]
  | record => exact h.elim
  | anything => exact h.elim

theorem exists_decode_null_iff {t : ParameterType} (h : t.Plain) :
    (∃ v, t.decode Draft.noParameter = .ok v) ↔ t = .optional ∨ t = .nothing := by
  simp only [decode_null_iff h, exists_or, exists_and_left, exists_eq, and_true]

/-! ## 4. Enqueuing and resolving -/

/-- What resolving a job comes to once its parameter is read. -/
def Handler.receive (h : Handler) (v : Parameter) (calls : Nat) : Resolution :=
  match h.factory calls with
  | .made => .endpoint h v
  | .nothing => .failed (.missingHandler h.type.name)
  | .panic message => .panicked message

theorem Handler.receive_ne_parameter (h : Handler) (v : Parameter) (calls : Nat)
    (reason : Json.ReadError) : h.receive v calls ≠ .failed (.parameter h.type.name reason) := by
  unfold receive
  cases h.factory calls <;> nofun

namespace Registry

variable {r : Registry} {h : Handler} {policy : RetryPolicy}

theorem resolve_eq (hentry : r.entry? h.type.name = some (h, policy)) (text : String)
    (calls : Nat) :
    r.resolve h.type.name text calls = match h.type.parameter.decode text with
      | .error reason => .failed (.parameter h.type.name reason)
      | .ok v => h.receive v calls := by
  unfold resolve
  rw [hentry]
  rfl

theorem resolve_of_decode (hentry : r.entry? h.type.name = some (h, policy)) {text : String}
    {v : Parameter} (hv : h.type.parameter.decode text = .ok v) (calls : Nat) :
    r.resolve h.type.name text calls = h.receive v calls := by
  rw [resolve_eq hentry, hv]

/-- Resolving fails for the parameter exactly if that cannot be read. -/
theorem exists_decode_iff (hentry : r.entry? h.type.name = some (h, policy)) (text : String)
    (calls : Nat) :
    (∃ v, h.type.parameter.decode text = .ok v) ↔
      ∀ reason, r.resolve h.type.name text calls ≠ .failed (.parameter h.type.name reason) := by
  rw [resolve_eq hentry]
  cases h.type.parameter.decode text with
  | error e => exact ⟨fun ⟨v, hv⟩ => (nomatch hv), fun hne => absurd rfl (hne e)⟩
  | ok v => exact ⟨fun _ => h.receive_ne_parameter v calls, fun _ => ⟨v, rfl⟩⟩

end Registry

/-- **What is enqueued is what the handler receives.** A job that was built with a parameter resolves
to the handler with just this parameter. A job can be built without one exactly if `null` can be read
as one, and then the handler receives that. -/
theorem received_as_enqueued {handlers : List Handler} {defaultPolicy : RetryPolicy}
    {overrides : List (String × RetryPolicy)} {r : Registry} {h : Handler} {d : Draft}
    (hbuild : Registry.build handlers defaultPolicy overrides = .ok r) (hmem : h ∈ handlers)
    (hplain : h.type.parameter.Plain) (htype : d.type = h.type) (clock : Instant) (calls : Nat) :
    (∀ v, d.parameter = some v → v.type = h.type.parameter →
      ((∃ job, d.build clock = .ok job) ↔ ∃ t, d.dueTime clock = .ok t) ∧
      ∀ job, d.build clock = .ok job → job.jobType = h.type.name ∧
        r.resolve job.jobType job.parameter calls = h.receive v calls) ∧
    (d.parameter = none →
      ((∃ job, d.build clock = .ok job) ↔ (∃ t, d.dueTime clock = .ok t) ∧
        ∀ reason, r.resolve h.type.name "null" calls ≠ .failed (.parameter h.type.name reason)) ∧
      ((∃ job, d.build clock = .ok job) ↔ (∃ t, d.dueTime clock = .ok t) ∧
        (h.type.parameter = .optional ∨ h.type.parameter = .nothing)) ∧
      ∀ job, d.build clock = .ok job → job.jobType = h.type.name ∧ job.parameter = "null" ∧
        ∃ v, (v = .optional none ∨ v = .nothing) ∧ v.type = h.type.parameter ∧
          r.resolve job.jobType job.parameter calls = h.receive v calls) := by
  obtain ⟨policy, hentry⟩ := Registry.entry?_of_mem hbuild hmem
  refine ⟨fun v hv hvtype => ⟨?_, ?_⟩, fun hnone => ?_⟩
  · rw [Draft.exists_build_iff, Draft.parameterText_some hv]
    exact and_iff_left ⟨_, rfl⟩
  · intro job hjob
    obtain ⟨hname, htext⟩ := Draft.stored_of_build hjob
    rw [Draft.parameterText_some hv] at htext
    -- what is stored is the text of the parameter, and that is read back
    have hstored : v.encode = job.parameter := Except.ok.inj htext
    have hdecode : h.type.parameter.decode v.encode = .ok v := by
      rw [← hvtype] at hplain ⊢
      exact decode_encode hplain
    rw [hname, htype, ← hstored]
    exact ⟨rfl, Registry.resolve_of_decode hentry hdecode calls⟩
  · have hstored : (∃ text, d.parameterText = .ok text) ↔
        ∃ v, h.type.parameter.decode Draft.noParameter = .ok v := by
      simp only [Draft.parameterText_none hnone, htype, exists_and_right, exists_eq, true_and]
    rw [Draft.exists_build_iff, hstored]
    refine ⟨and_congr_right fun _ => Registry.exists_decode_iff hentry _ calls,
      and_congr_right fun _ => exists_decode_null_iff hplain, ?_⟩
    intro job hjob
    obtain ⟨hname, htext⟩ := Draft.stored_of_build hjob
    obtain ⟨hnull, v, hv⟩ := (Draft.parameterText_none hnone).1 htext
    rw [htype] at hv
    rw [hname, htype, hnull]
    refine ⟨rfl, rfl, v, ?_, ?_, Registry.resolve_of_decode hentry hv calls⟩
    · exact ((decode_null_iff hplain).1 hv).imp (·.2) (·.2)
    · rcases (decode_null_iff hplain).1 hv with ⟨hoptional, rfl⟩ | ⟨hnothing, rfl⟩
      · exact hoptional.symm
      · exact hnothing.symm

/-- An order whose message needs escapes. -/
theorem received_as_enqueued_order :
    let h := Catalog.handler Catalog.orders 0
    let v : Parameter := .order (.error "a\n\"b\"\x01")
    let d : Draft := { Draft.new Catalog.orders ⟨.ofNat 1⟩ with parameter := some v }
    ∃ r job, Registry.build [h] .noRetry [] = .ok r ∧ d.build .epoch = .ok job ∧
      job.parameter = "\x7b\"Error\":\x7b\"error\":\"a\\n\\\"b\\\"\\u0001\"\x7d\x7d" ∧
      r.resolve job.jobType job.parameter 0 = .endpoint h v := by
  intro h v d
  have hbuild : Registry.build [h] .noRetry [] =
      .ok ⟨[(h, Registry.policyOf [] .noRetry h)], .noRetry⟩ := rfl
  have hreceived := received_as_enqueued (d := d) hbuild (List.mem_singleton_self h) trivial rfl
    .epoch 0
  exact ⟨_, _, hbuild, rfl, by decide +kernel, ((hreceived.1 v rfl rfl).2 _ rfl).2⟩

end JobQueue
