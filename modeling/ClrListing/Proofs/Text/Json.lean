/-
Reading JSON text that was written.

A value is written in one way of many in which it might be: on indented
lines, with the short escapes where there are some. What is read back is
that value, of whatever values it is made up (`ofText?_toText`), a string
without a text included.

A number ends where its digits do, so that what follows it matters. In a
written value that is a comma or the start of a line, or nothing at all
(`Stops`). The reader's fuel counts its steps; a value takes no more of them
than it has characters (`steps_le_length`).
-/
import ClrListing.Text.Json.Reader

namespace ClrListing.Text.Json

-- ============================================================= stops

/-- What may follow a value that is written: a comma, the start of a line,
or nothing. -/
def Stops (rest : List Char) : Prop := ∀ c ∈ rest.head?, c = ',' ∨ c = '\n'

theorem stops_nil : Stops [] := nofun

theorem stops_comma (rest : List Char) : Stops (',' :: rest) := by
  rintro c ⟨⟩
  exact .inl rfl

theorem stops_newLine (depth : Nat) (rest : List Char) : Stops (newLine depth ++ rest) := by
  rintro c ⟨⟩
  exact .inr rfl

/-- What may follow a value does not go on with one. -/
theorem Stops.cases {rest : List Char} (h : Stops rest) :
    rest = [] ∨ ∃ c tail, rest = c :: tail ∧ (c = ',' ∨ c = '\n') := by
  cases rest with
  | nil => exact .inl rfl
  | cons c tail => exact .inr ⟨c, tail, rfl, h c rfl⟩

-- ============================================================ blanks

theorem skipSpace_cons {c : Char} (h : isSpace c = false) (rest : List Char) :
    skipSpace (c :: rest) = c :: rest := by
  unfold skipSpace
  rw [List.dropWhile_cons_of_neg (by simp [h])]

/-- Blanks are skipped with those that follow them. -/
theorem skipSpace_append {blanks : List Char} (h : ∀ c ∈ blanks, isSpace c = true)
    (rest : List Char) : skipSpace (blanks ++ rest) = skipSpace rest :=
  List.dropWhile_append_of_pos h

theorem skipSpace_newLine (depth : Nat) (rest : List Char) :
    skipSpace (newLine depth ++ rest) = skipSpace rest := by
  refine skipSpace_append (fun c hc => ?_) rest
  rcases List.mem_cons.mp hc with rfl | hblank
  · rfl
  · rw [List.eq_of_mem_replicate hblank]
    rfl

-- =========================================================== numbers

/-- The digits of a number. -/
theorem isDigit_of_mem_toDigits {n : Nat} {c : Char} (h : c ∈ Nat.toDigits 10 n) :
    isDigit c = true :=
  Nat.isDigit_of_mem_toDigits (by decide) (by decide) h

theorem decimal_toDigits (n : Nat) : decimal (Nat.toDigits 10 n) = n := by
  have hfold : decimal (Nat.toDigits 10 n) = Nat.ofDigitChars 10 (Nat.toDigits 10 n) 0 := by
    rw [Nat.ofDigitChars_eq_foldl]
    unfold decimal
    refine congrArg (fun f => List.foldl f 0 _) (funext fun m => funext fun c => ?_)
    rw [Nat.mul_comm]
  rw [hfold, Nat.ofDigitChars_ten_toDigits]

/-- No number but zero has a leading zero. -/
theorem head_toDigits_ne {n : Nat} (h : 0 < n) : (Nat.toDigits 10 n).head? ≠ some '0' := by
  induction n using Nat.strongRecOn with
  | ind n ih =>
    rw [Nat.toDigits_eq_if (by decide)]
    split
    case isTrue hsmall =>
      have hdigit : ∀ m < 10, 0 < m → Nat.digitChar m ≠ '0' := by decide
      intro hzero
      exact hdigit n hsmall h (Option.some.inj hzero)
    case isFalse hlarge =>
      have hfirst := ih (n / 10) (by omega) (by omega)
      cases hdigits : Nat.toDigits 10 (n / 10) with
      | nil => exact absurd hdigits Nat.toDigits_ne_nil
      | cons d ds => rwa [hdigits] at hfirst

theorem readDigits_append {digits rest : List Char} (hne : digits ≠ [])
    (hdigits : ∀ c ∈ digits, isDigit c = true) (hrest : Stops rest) :
    readDigits (digits ++ rest) = some (digits, rest) := by
  have hstop : rest.takeWhile isDigit = [] ∧ rest.dropWhile isDigit = rest := by
    rcases hrest.cases with rfl | ⟨c, tail, rfl, rfl | rfl⟩ <;> exact ⟨rfl, rfl⟩
  unfold readDigits
  rw [List.takeWhile_append_of_pos hdigits, List.dropWhile_append_of_pos hdigits, hstop.1,
    hstop.2, List.append_nil]
  exact if_neg (by simpa using hne)

theorem readWhole_append (n : Nat) {rest : List Char} (hrest : Stops rest) :
    readWhole (Nat.toDigits 10 n ++ rest) = some (n, rest) := by
  rcases Nat.eq_zero_or_pos n with rfl | hpos
  · rfl
  · have hhead := head_toDigits_ne hpos
    have hread := readDigits_append Nat.toDigits_ne_nil
      (fun _ => isDigit_of_mem_toDigits (n := n)) hrest
    have hvalue := decimal_toDigits n
    unfold readWhole
    split
    case h_1 tail heq =>
      -- a leading zero
      cases hdigits : Nat.toDigits 10 n with
      | nil => exact absurd hdigits Nat.toDigits_ne_nil
      | cons d ds =>
        rw [hdigits] at heq hhead
        cases heq
        exact absurd rfl hhead
    case h_2 =>
      rw [hread, Option.map_some, hvalue]

theorem readNumber_natural (n : Nat) {rest : List Char} (hrest : Stops rest) :
    readNumber (n.repr.toList ++ rest) = some (.natural n, rest) := by
  have hwhole := readWhole_append n hrest
  have hsign : ∀ tail, Nat.toDigits 10 n ++ rest ≠ '-' :: tail := by
    intro tail heq
    cases hdigits : Nat.toDigits 10 n with
    | nil => exact absurd hdigits Nat.toDigits_ne_nil
    | cons d ds =>
      rw [hdigits] at heq
      cases heq
      have hdigit : isDigit '-' = true :=
        isDigit_of_mem_toDigits (n := n) (hdigits ▸ List.mem_cons_self)
      exact absurd hdigit (by decide)
  have hfraction : readFraction rest = some (false, rest) := by
    rcases hrest.cases with rfl | ⟨c, tail, rfl, rfl | rfl⟩ <;> rfl
  have hexponent : readExponent rest = some (false, rest) := by
    rcases hrest.cases with rfl | ⟨c, tail, rfl, rfl | rfl⟩ <;> rfl
  rw [Nat.repr_eq_ofList_toDigits, String.toList_ofList]
  unfold readNumber
  split
  next isNegative s heq =>
  split at heq
  case h_1 tail hminus => exact absurd hminus (hsign tail)
  case h_2 =>
    cases heq
    rw [hwhole, Option.bind_eq_bind, Option.bind_some]
    dsimp only
    rw [hfraction, Option.bind_eq_bind, Option.bind_some]
    dsimp only
    rw [hexponent]
    rfl

-- =========================================================== strings

/-- The item that a written character is read as. -/
def itemOf (c : Char) : StringItem :=
  if c.toNat < 0x20 ∧ c ∉ ['\x08', '\t', '\n', '\x0c', '\r'] then .unit c.toNat else .char c

theorem unitOf?_lowDigits : ∀ n < 0x20, unitOf? (Hex.lowDigits 4 n) = some n := by decide

/-- A character that is written as it is. -/
theorem readItems_plain {c : Char} (hquote : c ≠ '"') (hslash : c ≠ '\\') (hc : 0x20 ≤ c.toNat)
    (rest : List Char) :
    readItems (c :: rest) = (readItems rest).map fun r => (.char c :: r.1, r.2) := by
  rw [readItems.eq_def]
  split
  case h_1 => contradiction
  case h_2 heq =>
    cases heq
    exact absurd rfl hquote
  case h_3 heq =>
    cases heq
    exact absurd rfl hslash
  case h_4 heq =>
    cases heq
    exact absurd rfl hslash
  case h_5 heq =>
    cases heq
    rw [if_neg (by simp [hslash, Nat.not_lt.mpr hc])]
    cases readItems rest <;> rfl

/-- A unit that is no part of a pair. -/
theorem textOf?_unit {u : Nat} (h : u < 0x20) (items : List StringItem) :
    textOf? (.unit u :: items) = (textOf? items).map (Char.ofNat u :: ·) := by
  have hhigh : isHigh u = false := by
    unfold isHigh
    rw [Bool.and_eq_false_iff]
    exact .inl (decide_eq_false (by omega))
  have hlow : isLow u = false := by
    unfold isLow
    rw [Bool.and_eq_false_iff]
    exact .inl (decide_eq_false (by omega))
  match items with
  | [] | .char _ :: _ | .unit _ :: _ => simp [textOf?, hhigh, hlow]

theorem textOf?_itemOf (c : Char) (items : List StringItem) :
    textOf? (itemOf c :: items) = (textOf? items).map (c :: ·) := by
  unfold itemOf
  split
  case isTrue h => rw [textOf?_unit h.1, Char.ofNat_toNat]
  case isFalse => rw [textOf?]

/-- A character is read as it was written. -/
theorem readItems_escape (c : Char) (rest : List Char) :
    readItems (escape c ++ rest) = (readItems rest).map fun r => (itemOf c :: r.1, r.2) := by
  unfold escape
  split
  case h_8 hquote hslash hbell htab hline hpage hreturn =>
    split
    case isTrue hcontrol =>
      have hlong : c ∉ ['\x08', '\t', '\n', '\x0c', '\r'] := by
        simp only [List.mem_cons, List.not_mem_nil, or_false, not_or]
        exact ⟨hbell, htab, hline, hpage, hreturn⟩
      have hitem : itemOf c = .unit c.toNat := if_pos ⟨hcontrol, hlong⟩
      have hread := unitOf?_lowDigits c.toNat hcontrol
      rw [hitem]
      change (unitOf? (Hex.lowDigits 4 c.toNat) >>= fun u => readItems rest >>= fun r =>
        some (.unit u :: r.1, r.2)) = _
      rw [hread, Option.bind_eq_bind, Option.bind_some]
      cases readItems rest <;> rfl
    case isFalse hplain =>
      have hitem : itemOf c = .char c := if_neg fun h => hplain h.1
      rw [hitem]
      exact readItems_plain hquote hslash (Nat.not_lt.mp hplain) rest
  all_goals
    change (readItems rest >>= fun r => some (StringItem.char _ :: r.1, r.2)) = _
    cases readItems rest <;> rfl

theorem readItems_text (s rest : List Char) :
    readItems (s.flatMap escape ++ '"' :: rest) = some (s.map itemOf, rest) := by
  induction s with
  | nil => rfl
  | cons c s ih =>
    rw [List.flatMap_cons, List.append_assoc, readItems_escape, ih]
    rfl

theorem textOf?_items (s : List Char) : textOf? (s.map itemOf) = some s := by
  induction s with
  | nil => rfl
  | cons c s ih =>
    rw [List.map_cons, textOf?_itemOf, ih]
    rfl

/-- What is written behind the opening quote of a string. -/
def unquoted : Option String → List Char
  | some s => s.toList.flatMap escape
  | none => noText

theorem quote_eq (text : Option String) : quote text = '"' :: (unquoted text ++ ['"']) := by
  cases text <;> rfl

theorem readString_unquoted (text : Option String) (rest : List Char) :
    readString (unquoted text ++ '"' :: rest) = some (text, rest) := by
  cases text with
  | none => rfl
  | some s =>
    unfold readString unquoted
    rw [readItems_text, Option.bind_eq_bind, Option.bind_some]
    dsimp only
    rw [textOf?_items, Option.map_some, String.ofList_toList]
    rfl

/-- The name of a member is read with the colon behind it. -/
theorem readName_quote (name : Option String) (rest : List Char) :
    readName (quote name ++ ([':', ' '] ++ rest)) = some (name, ' ' :: rest) := by
  rw [quote_eq, List.cons_append, List.append_assoc]
  change (readString (unquoted name ++ '"' :: ':' :: ' ' :: rest) >>= _) = _
  rw [readString_unquoted]
  rfl

theorem readName_newLine (depth : Nat) (s : List Char) :
    readName (newLine depth ++ s) = readName s := by
  unfold readName
  rw [skipSpace_newLine]

-- ============================================================ values

/-- A digit is no other character. -/
theorem ne_of_isDigit {c d : Char} (hd : isDigit d = true) (hc : isDigit c = false) : d ≠ c := by
  rintro rfl
  rw [hd] at hc
  cases hc

theorem isSpace_of_isDigit {d : Char} (hd : isDigit d = true) : isSpace d = false := by
  unfold isSpace
  simp [ne_of_isDigit hd (c := ' ') rfl, ne_of_isDigit hd (c := '\t') rfl,
    ne_of_isDigit hd (c := '\n') rfl, ne_of_isDigit hd (c := '\r') rfl]

/-- The first digit of a number and the others. -/
theorem exists_digits (n : Nat) : ∃ d ds, n.repr.toList = d :: ds ∧ isDigit d = true := by
  rw [Nat.repr_eq_ofList_toDigits, String.toList_ofList]
  cases hdigits : Nat.toDigits 10 n with
  | nil => exact absurd hdigits Nat.toDigits_ne_nil
  | cons d ds =>
    exact ⟨d, ds, rfl, isDigit_of_mem_toDigits (n := n) (hdigits ▸ List.mem_cons_self)⟩

/-- How a value begins that is written: with no blank, and not with the end
of another. -/
theorem exists_write (depth : Nat) (j : Json) : ∃ c tail, write depth j = c :: tail
    ∧ isSpace c = false ∧ c ≠ ']' ∧ c ≠ '}' := by
  match j with
  | .null | .otherNumber | .bool true | .bool false | .array [] | .array (_ :: _) | .object []
  | .object (_ :: _) => exact ⟨_, _, rfl, by decide⟩
  | .string text => exact ⟨'"', _, by rw [write, quote_eq], by decide⟩
  | .natural n =>
    obtain ⟨d, ds, hrepr, hdigit⟩ := exists_digits n
    exact ⟨d, ds, by rw [write, hrepr], isSpace_of_isDigit hdigit, ne_of_isDigit hdigit rfl,
      ne_of_isDigit hdigit rfl⟩

theorem readValue_newLine (fuel depth : Nat) (s : List Char) :
    readValue fuel (newLine depth ++ s) = readValue fuel s := by
  cases fuel with
  | zero => rfl
  | succ fuel => rw [readValue, readValue, skipSpace_newLine]

theorem readElements_newLine (fuel depth : Nat) (s : List Char) :
    readElements fuel (newLine depth ++ s) = readElements fuel s := by
  cases fuel with
  | zero => rfl
  | succ fuel => rw [readElements, readElements, readValue_newLine]

theorem readMembers_newLine (fuel depth : Nat) (s : List Char) :
    readMembers fuel (newLine depth ++ s) = readMembers fuel s := by
  cases fuel with
  | zero => rfl
  | succ fuel => rw [readMembers, readMembers, readName_newLine]

/-- A blank before a value is skipped. -/
theorem readValue_space (fuel : Nat) (s : List Char) :
    readValue fuel (' ' :: s) = readValue fuel s := by
  cases fuel with
  | zero => rfl
  | succ fuel =>
    have hblank : ∀ c ∈ [' '], isSpace c = true := fun c hc => List.mem_singleton.mp hc ▸ rfl
    have hskip : skipSpace (' ' :: s) = skipSpace s := skipSpace_append hblank s
    rw [readValue, readValue, hskip]

/-- A value that begins with a digit is a number. -/
theorem readValue_digit (fuel : Nat) {d : Char} (hd : isDigit d = true) (tail : List Char) :
    readValue (fuel + 1) (d :: tail) = readNumber (d :: tail) := by
  rw [readValue, skipSpace_cons (isSpace_of_isDigit hd)]
  split
  case h_4 =>
    unfold readPlain
    split
    case h_4 => rfl
    all_goals
      next heq =>
      cases heq
      exact absurd hd (by decide)
  all_goals
    next heq =>
    cases heq
    exact absurd hd (by decide)

theorem readValue_natural (fuel n : Nat) {rest : List Char} (hrest : Stops rest) :
    readValue (fuel + 1) (n.repr.toList ++ rest) = some (.natural n, rest) := by
  have hread := readNumber_natural n hrest
  obtain ⟨d, ds, hrepr, hdigit⟩ := exists_digits n
  rw [hrepr] at hread ⊢
  exact (readValue_digit fuel hdigit (ds ++ rest)).trans hread

theorem readValue_bracket (fuel : Nat) (s : List Char) : readValue (fuel + 1) ('[' :: s)
    = match skipSpace s with
      | ']' :: rest => some (.array [], rest)
      | rest => (readElements fuel rest).map fun r => (.array r.1, r.2) := by
  rw [readValue, skipSpace_cons (by decide)]
  rfl

theorem readValue_brace (fuel : Nat) (s : List Char) : readValue (fuel + 1) ('{' :: s)
    = match skipSpace s with
      | '}' :: rest => some (.object [], rest)
      | rest => (readMembers fuel rest).map fun r => (.object r.1, r.2) := by
  rw [readValue, skipSpace_cons (by decide)]
  rfl

/-- An array that does not end at once has elements. -/
theorem readValue_array (fuel depth : Nat) {c : Char} {tail : List Char}
    (hspace : isSpace c = false) (hend : c ≠ ']') :
    readValue (fuel + 1) ('[' :: (newLine depth ++ c :: tail))
      = (readElements fuel (c :: tail)).map fun r => (.array r.1, r.2) := by
  rw [readValue_bracket, skipSpace_newLine, skipSpace_cons hspace]
  split
  case h_1 heq =>
    cases heq
    exact absurd rfl hend
  case h_2 => rfl

/-- An object that does not end at once has members. -/
theorem readValue_object (fuel depth : Nat) {c : Char} {tail : List Char}
    (hspace : isSpace c = false) (hend : c ≠ '}') :
    readValue (fuel + 1) ('{' :: (newLine depth ++ c :: tail))
      = (readMembers fuel (c :: tail)).map fun r => (.object r.1, r.2) := by
  rw [readValue_brace, skipSpace_newLine, skipSpace_cons hspace]
  split
  case h_1 heq =>
    cases heq
    exact absurd rfl hend
  case h_2 => rfl

-- ============================================================= steps

mutual

/-- How many steps the reader takes for a value. -/
def steps : Json → Nat
  | .array elements => stepsOfElements elements + 1
  | .object members => stepsOfMembers members + 1
  | _ => 1

/-- How many steps the reader takes for elements. -/
def stepsOfElements : List Json → Nat
  | [] => 0
  | j :: js => steps j + stepsOfElements js + 1

/-- How many steps the reader takes for members. -/
def stepsOfMembers : List (Option String × Json) → Nat
  | [] => 0
  | (_, j) :: ms => steps j + stepsOfMembers ms + 1

end

mutual

/-- A value takes no more steps than it has characters. -/
theorem steps_le_length (depth : Nat) : ∀ j : Json, steps j ≤ (write depth j).length
  | .null | .otherNumber | .bool true | .bool false | .array [] | .object [] => by
    simp [steps, stepsOfElements, stepsOfMembers, write]
  | .natural n => by
    obtain ⟨d, ds, hrepr, -⟩ := exists_digits n
    rw [write, hrepr]
    exact Nat.succ_le_succ (Nat.zero_le _)
  | .string text => by
    rw [write, quote_eq]
    exact Nat.succ_le_succ (Nat.zero_le _)
  | .array (j :: js) => by
    have hfirst := steps_le_length (depth + 1) j
    have hothers := stepsOfElements_le_length (depth + 1) js
    rw [steps, stepsOfElements, write]
    simp only [List.length_append, List.length_cons, List.length_nil, newLine]
    omega
  | .object ((name, j) :: ms) => by
    have hfirst := steps_le_length (depth + 1) j
    have hothers := stepsOfMembers_le_length (depth + 1) ms
    rw [steps, stepsOfMembers, write]
    simp only [List.length_append, List.length_cons, List.length_nil, newLine]
    omega

theorem stepsOfElements_le_length (depth : Nat) :
    ∀ js : List Json, stepsOfElements js ≤ (writeElements depth js).length
  | [] => Nat.zero_le _
  | j :: js => by
    have hfirst := steps_le_length depth j
    have hothers := stepsOfElements_le_length depth js
    rw [stepsOfElements, writeElements]
    simp only [List.length_append, List.length_cons, List.length_nil, newLine]
    omega

theorem stepsOfMembers_le_length (depth : Nat) :
    ∀ ms : List (Option String × Json), stepsOfMembers ms ≤ (writeMembers depth ms).length
  | [] => Nat.zero_le _
  | (name, j) :: ms => by
    have hfirst := steps_le_length depth j
    have hothers := stepsOfMembers_le_length depth ms
    rw [stepsOfMembers, writeMembers]
    simp only [List.length_append, List.length_cons, List.length_nil, newLine]
    omega

end

-- ======================================================== round trip

/-- What is written is read back with so much fuel: values, and what is
behind the opening bracket of arrays and objects that are not empty. -/
structure ReadsBack (fuel : Nat) : Prop where
  value : ∀ j depth rest, steps j ≤ fuel → Stops rest →
    readValue fuel (write depth j ++ rest) = some (j, rest)
  elements : ∀ j js depth outer rest, stepsOfElements (j :: js) ≤ fuel →
    readElements fuel (write depth j ++ (writeElements depth js ++ (newLine outer ++ ']' :: rest)))
      = some (j :: js, rest)
  members : ∀ name j ms depth outer rest, stepsOfMembers ((name, j) :: ms) ≤ fuel →
    readMembers fuel (quote name ++ ([':', ' '] ++ (write depth j
        ++ (writeMembers depth ms ++ (newLine outer ++ '}' :: rest)))))
      = some ((name, j) :: ms, rest)

theorem readsBack_value {fuel : Nat} (ih : ReadsBack fuel) (j : Json) (depth : Nat)
    (rest : List Char) (hfuel : steps j ≤ fuel + 1) (hrest : Stops rest) :
    readValue (fuel + 1) (write depth j ++ rest) = some (j, rest) := by
  match j with
  | .null | .bool true | .bool false => rfl
  | .otherNumber => rcases hrest.cases with rfl | ⟨c, tail, rfl, rfl | rfl⟩ <;> rfl
  | .array [] | .object [] => rfl
  | .natural n =>
    rw [write]
    exact readValue_natural fuel n hrest
  | .string text =>
    rw [write, quote_eq, List.cons_append, List.append_assoc, readValue, skipSpace_cons (by decide)]
    change (readString (unquoted text ++ '"' :: rest)).map _ = _
    rw [readString_unquoted]
    rfl
  | .array (j :: js) =>
    rw [steps] at hfuel
    have hread := ih.elements j js (depth + 1) depth rest (by omega)
    obtain ⟨c, tail, hwrite, hspace, hend, -⟩ := exists_write (depth + 1) j
    rw [write]
    simp only [List.append_assoc, List.cons_append, List.nil_append]
    rw [hwrite] at hread ⊢
    rw [List.cons_append] at hread ⊢
    rw [readValue_array fuel _ hspace hend, hread]
    rfl
  | .object ((name, j) :: ms) =>
    rw [steps] at hfuel
    have hread := ih.members name j ms (depth + 1) depth rest (by omega)
    rw [write]
    simp only [List.append_assoc, List.cons_append, List.nil_append] at hread ⊢
    rw [quote_eq, List.cons_append] at hread ⊢
    rw [readValue_object fuel _ (by decide) (by decide), hread]
    rfl

theorem readsBack_elements {fuel : Nat} (ih : ReadsBack fuel) (j : Json) (js : List Json)
    (depth outer : Nat) (rest : List Char) (hfuel : stepsOfElements (j :: js) ≤ fuel + 1) :
    readElements (fuel + 1) (write depth j ++ (writeElements depth js
      ++ (newLine outer ++ ']' :: rest))) = some (j :: js, rest) := by
  rw [stepsOfElements] at hfuel
  rw [readElements]
  cases js with
  | nil =>
    rw [writeElements, List.nil_append,
      ih.value j depth _ (by omega) (stops_newLine outer _), Option.bind_eq_bind, Option.bind_some]
    dsimp only
    rw [skipSpace_newLine, skipSpace_cons (by decide)]
    rfl
  | cons j' js =>
    have hread := ih.elements j' js depth outer rest (by omega)
    rw [writeElements]
    simp only [List.append_assoc, List.cons_append, List.nil_append]
    rw [ih.value j depth _ (by omega) (stops_comma _), Option.bind_eq_bind, Option.bind_some]
    dsimp only
    rw [skipSpace_cons (by decide)]
    change (readElements fuel (newLine depth ++ _) >>= _) = _
    rw [readElements_newLine, hread]
    rfl

theorem readsBack_members {fuel : Nat} (ih : ReadsBack fuel) (name : Option String) (j : Json)
    (ms : List (Option String × Json)) (depth outer : Nat) (rest : List Char)
    (hfuel : stepsOfMembers ((name, j) :: ms) ≤ fuel + 1) :
    readMembers (fuel + 1) (quote name ++ ([':', ' '] ++ (write depth j ++ (writeMembers depth ms
      ++ (newLine outer ++ '}' :: rest))))) = some ((name, j) :: ms, rest) := by
  rw [stepsOfMembers] at hfuel
  rw [readMembers, readName_quote, Option.bind_eq_bind, Option.bind_some]
  dsimp only
  rw [readValue_space]
  cases ms with
  | nil =>
    rw [writeMembers, List.nil_append,
      ih.value j depth _ (by omega) (stops_newLine outer _), Option.bind_eq_bind, Option.bind_some]
    dsimp only
    rw [skipSpace_newLine, skipSpace_cons (by decide)]
    rfl
  | cons m ms =>
    obtain ⟨name', j'⟩ := m
    have hread := ih.members name' j' ms depth outer rest (by omega)
    rw [writeMembers]
    simp only [List.append_assoc, List.cons_append, List.nil_append] at hread ⊢
    rw [ih.value j depth _ (by omega) (stops_comma _), Option.bind_eq_bind, Option.bind_some]
    dsimp only
    rw [skipSpace_cons (by decide)]
    change (readMembers fuel (newLine depth ++ _) >>= _) = _
    rw [readMembers_newLine, hread]
    rfl

/-- The induction is on the fuel, which every step into or along a value
makes less by one. -/
theorem readsBack (fuel : Nat) : ReadsBack fuel := by
  induction fuel with
  | zero =>
    constructor
    case value =>
      intro j _ _ hfuel
      have hpos : 1 ≤ steps j := by
        cases j <;> simp [steps]
      omega
    case elements =>
      intro j js _ _ _ hfuel
      rw [stepsOfElements] at hfuel
      omega
    case members =>
      intro name j ms _ _ _ hfuel
      rw [stepsOfMembers] at hfuel
      omega
  | succ fuel ih => exact ⟨readsBack_value ih, readsBack_elements ih, readsBack_members ih⟩

/-- The text of a value is read as that value. -/
theorem ofText?_toText (j : Json) : ofText? j.toText = some j := by
  have hsteps : steps j ≤ 2 * (write 0 j).length + 2 := by
    have hle := steps_le_length 0 j
    omega
  have hread := (readsBack _).value j 0 [] hsteps stops_nil
  rw [List.append_nil] at hread
  unfold ofText? toText
  rw [String.toList_ofList]
  dsimp only
  rw [hread]
  rfl

end ClrListing.Text.Json
