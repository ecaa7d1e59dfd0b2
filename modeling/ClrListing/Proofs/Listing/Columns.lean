/-
What can be read back from a listing of code.

Each instruction is one line of three columns: its address, its bytes and its
text. How wide the column of bytes is depends on all instructions of a method,
but it leaves two blanks at least before the text (`Shows`), and that is what
a reader goes by: an address takes the same number of characters in every
listing of an architecture, bytes are written without blanks, and a text does
not start with one. So a line tells what it was written for, whatever the
width (`Shows.unique`), and a listing tells its instructions.
-/
import ClrListing.Listing.Method
import ClrListing.Proofs.Metadata.Rows
import ClrListing.Proofs.Native.Written
import Mathlib.Algebra.Group.Nat.Defs

namespace ClrListing.Text

-- =============================================================== digits

namespace Hex

theorem length_lowDigits (count n : Nat) : (lowDigits count n).length = count := by
  induction count generalizing n with
  | zero => rfl
  | succ count ih => simp [lowDigits, ih]

theorem digit_inj : ∀ m < 16, ∀ n < 16, digit m = digit n → m = n := by decide

/-- Numbers with the same digits are the same, if no digit was cut off. -/
theorem lowDigits_inj {count m n : Nat} (hm : m < 16 ^ count) (hn : n < 16 ^ count)
    (h : lowDigits count m = lowDigits count n) : m = n := by
  induction count generalizing m n with
  | zero => simp at hm hn; omega
  | succ count ih =>
    rw [Nat.pow_succ] at hm hn
    obtain ⟨hhigh, hlow⟩ := List.append_inj h (by simp only [length_lowDigits])
    have hquotient : m / 16 = n / 16 := ih (by omega) (by omega) hhigh
    have hremainder : m % 16 = n % 16 :=
      digit_inj _ (by omega) _ (by omega) (List.singleton_injective hlow)
    omega

theorem mem_lowDigits {count n : Nat} {c : Char} (h : c ∈ lowDigits count n) :
    ∃ m < 16, c = digit m := by
  induction count generalizing n with
  | zero => cases h
  | succ count ih =>
    rcases List.mem_append.mp h with h | h
    · exact ih h
    · exact ⟨n % 16, by omega, List.mem_singleton.mp h⟩

/-- Eight digits are enough for a number of 32 bits. -/
theorem padded_eight {n : Nat} (h : n < 0x100000000) : padded 8 n = lowDigits 8 n := by
  have hwidth : width n ≤ 8 := by
    unfold width
    split
    · decide
    · next hn =>
      have hlog : n.log2 < 32 := (Nat.log2_lt hn).mpr h
      omega
  rw [padded, Nat.max_eq_left hwidth]

theorem length_bytes (data : List UInt8) : (bytes data).length = 2 * data.length := by
  induction data with
  | nil => rfl
  | cons b data ih =>
    change (digit _ :: digit _ :: bytes data).length = _
    simp only [List.length_cons, ih]
    omega

end Hex

-- ================================================================ lines

/-- A separator ends the first piece. -/
theorem splitAll_front {c : Char} {front : List Char} (h : c ∉ front) (s : List Char) :
    splitAll c (front ++ c :: s) = front :: splitAll c s := by
  induction front with
  | nil => simp [splitAll]
  | cons d front ih =>
    rw [List.mem_cons, not_or] at h
    rw [List.cons_append, splitAll, if_neg (Ne.symm h.1), ih h.2]

end ClrListing.Text

namespace ClrListing.Native

open Text

theorem bytes_inj {data data' : List UInt8} (h : Hex.bytes data = Hex.bytes data') :
    data = data' := by
  have hread := readBytes_bytes data
  rw [h, readBytes_bytes] at hread
  exact (Option.some.inj hread).symm

-- ============================================================ addresses

/-- Whether an address takes no more digits than an architecture has for
it. -/
def Architecture.Fits (a : Architecture) (address : UInt64) : Prop :=
  a = .x86 → address.toNat < 0x100000000

namespace Architecture

variable {a : Architecture} {x y : UInt64}

theorem halves_lt (x : UInt64) :
    x.toNat / 0x100000000 < 0x100000000 ∧ x.toNat % 0x100000000 < 0x100000000 := by
  have hx := x.toNat_lt
  omega

theorem toList_short (h : x.toNat < 0x100000000) :
    (format .x86 x).toList = Hex.lowDigits 8 x.toNat := by
  show (String.ofList (Hex.padded 8 x.toNat)).toList = _
  rw [String.toList_ofList, Hex.padded_eight h]

theorem toList_long (x : UInt64) :
    (format .x64 x).toList = Hex.lowDigits 8 (x.toNat / 0x100000000)
      ++ ("`".toList ++ Hex.lowDigits 8 (x.toNat % 0x100000000)) := by
  obtain ⟨hhigh, hlow⟩ := halves_lt x
  show (String.ofList (Hex.padded 8 (x.toNat / 0x100000000)) ++ "`"
    ++ String.ofList (Hex.padded 8 (x.toNat % 0x100000000))).toList = _
  rw [Hex.padded_eight hhigh, Hex.padded_eight hlow]
  simp only [String.toList_append, String.toList_ofList, List.append_assoc]

/-- Addresses take the same number of characters. -/
theorem length_format (h : a.Fits x) :
    (a.format x).toList.length = (if a.isLong then 17 else 8) := by
  cases a with
  | x86 =>
    rw [toList_short (h rfl), Hex.length_lowDigits]
    rfl
  | x64 =>
    rw [toList_long]
    simp [Hex.length_lowDigits, isLong]

theorem format_inj (hx : a.Fits x) (hy : a.Fits y) (h : a.format x = a.format y) : x = y := by
  have hlist := congrArg String.toList h
  apply UInt64.toNat_inj.mp
  cases a with
  | x86 =>
    rw [toList_short (hx rfl), toList_short (hy rfl)] at hlist
    exact Hex.lowDigits_inj (hx rfl) (hy rfl) hlist
  | x64 =>
    rw [toList_long, toList_long] at hlist
    obtain ⟨hhigh, hrest⟩ := List.append_inj hlist (by simp only [Hex.length_lowDigits])
    have hlow := List.append_cancel_left hrest
    have hquotient := Hex.lowDigits_inj (halves_lt x).1 (halves_lt y).1 hhigh
    have hremainder := Hex.lowDigits_inj (halves_lt x).2 (halves_lt y).2 hlow
    omega

theorem newLine_not_mem (h : a.Fits x) : '\n' ∉ (a.format x).toList := by
  have hdigit : ∀ m < 16, '\n' ≠ Hex.digit m := by decide
  have hdigits : ∀ n, '\n' ∉ Hex.lowDigits 8 n := by
    intro n hmem
    obtain ⟨m, hm, hc⟩ := Hex.mem_lowDigits hmem
    exact hdigit m hm hc
  cases a with
  | x86 =>
    rw [toList_short (h rfl)]
    exact hdigits _
  | x64 =>
    rw [toList_long, List.mem_append, List.mem_append]
    rintro (hc | hc | hc)
    · exact hdigits _ hc
    · revert hc
      decide
    · exact hdigits _ hc

end Architecture

end ClrListing.Native

namespace ClrListing.Listing

open Text Native

variable {a : Architecture} {i j : Decoded}

-- ================================================================ lines

/-- An instruction that can be told from its line. -/
structure IsLegible (a : Architecture) (i : Decoded) : Prop where
  /-- The address has its place. -/
  address : a.Fits i.address
  /-- The text stays on the line. -/
  oneLine : '\n' ∉ i.text.toList
  /-- The text starts with itself. -/
  noBlank : i.text.toList.head? ≠ some ' '

/-- Whether a line shows an instruction: its address, two blanks, its bytes,
two blanks at least, and in the given column its text. -/
def Shows (a : Architecture) (column : Nat) (i : Decoded) (line : List Char) : Prop :=
  ∃ gap, 2 ≤ gap
    ∧ line = (a.format i.address).toList ++ ("  ".toList ++ (Hex.bytes i.bytes
        ++ (List.replicate gap ' ' ++ i.text.toList)))
    ∧ (a.format i.address).toList.length + (2 + ((Hex.bytes i.bytes).length + gap)) = column

/-- What is shown of an instruction. -/
def shown (i : Decoded) : UInt64 × List UInt8 × String := (i.address, i.bytes, i.text)

/-- The bytes end at the first blank, and the text starts behind the last
of the blanks there. -/
theorem bytes_and_text (data : List UInt8) (gap : Nat) {text : List Char} (hgap : 0 < gap)
    (htext : text.head? ≠ some ' ') :
    let rest := Hex.bytes data ++ (List.replicate gap ' ' ++ text)
    rest.takeWhile (· != ' ') = Hex.bytes data
      ∧ (rest.dropWhile (· != ' ')).dropWhile (· == ' ') = text := by
  have hbytes : ∀ c ∈ Hex.bytes data, (c != ' ') = true := by
    intro c hc
    have hspace := isCodeSpace_of_mem_bytes hc
    rw [bne_iff_ne]
    rintro rfl
    cases hspace
  obtain ⟨n, rfl⟩ : ∃ n, gap = n + 1 := ⟨gap - 1, by omega⟩
  have hblanks : ∀ c ∈ List.replicate (n + 1) ' ', (c == ' ') = true := by
    intro c hc
    simpa using (List.mem_replicate.mp hc).2
  have hrest : text.dropWhile (· == ' ') = text := by
    cases text with
    | nil => rfl
    | cons c text =>
      refine List.dropWhile_cons_of_neg ?_
      simpa using htext
  refine ⟨?_, ?_⟩
  · rw [List.takeWhile_append_of_pos hbytes, List.replicate_succ]
    simp
  · rw [List.dropWhile_append_of_pos hbytes]
    have hstop : (List.replicate (n + 1) ' ' ++ text).dropWhile (· != ' ')
        = List.replicate (n + 1) ' ' ++ text := by simp [List.replicate_succ]
    rw [hstop, List.dropWhile_append_of_pos hblanks, hrest]

/-- A line shows one instruction. -/
theorem Shows.unique {column column' : Nat} {line : List Char} (hi : IsLegible a i)
    (hj : IsLegible a j) (h : Shows a column i line) (h' : Shows a column' j line) :
    shown i = shown j := by
  obtain ⟨gap, hgap, hline, -⟩ := h
  obtain ⟨gap', hgap', hline', -⟩ := h'
  obtain ⟨haddress, hrest⟩ := List.append_inj (hline.symm.trans hline')
    ((Architecture.length_format hi.address).trans (Architecture.length_format hj.address).symm)
  have hcolumns := List.append_cancel_left hrest
  obtain ⟨hbytes, htext⟩ := bytes_and_text i.bytes gap (by omega) hi.noBlank
  obtain ⟨hbytes', htext'⟩ := bytes_and_text j.bytes gap' (by omega) hj.noBlank
  rw [hcolumns] at hbytes htext
  have hsame : i.address = j.address :=
    Architecture.format_inj hi.address hj.address (String.toList_injective haddress)
  have hdata : i.bytes = j.bytes := bytes_inj (hbytes.symm.trans hbytes')
  have hspelling : i.text = j.text := String.toList_injective (htext.symm.trans htext')
  rw [shown, shown, hsame, hdata, hspelling]

/-- The column of bytes is wide enough for each instruction. -/
theorem length_le_bytesWidth {is : List Decoded} (hi : i ∈ is) :
    2 * i.bytes.length + 2 ≤ bytesWidth is := by
  have hmax := ((Metadata.Layout.foldl_max_le (is.map fun i => i.bytes.length) 0 _).mp
    (Nat.le_refl _)).2 _ (List.mem_map_of_mem hi)
  unfold bytesWidth
  omega

theorem shows_codeLine (hi : IsLegible a i) {width : Nat} (h : 2 * i.bytes.length + 2 ≤ width) :
    Shows a ((if a.isLong then 17 else 8) + 2 + width) i (codeLine a width i).toList := by
  refine ⟨width - (Hex.bytes i.bytes).length, ?_, ?_, ?_⟩
  · rw [Hex.length_bytes]
    omega
  · simp [codeLine, padTo]
  · rw [Hex.length_bytes, Architecture.length_format hi.address]
    omega

theorem newLine_not_mem_codeLine (hi : IsLegible a i) (width : Nat) :
    '\n' ∉ (codeLine a width i).toList := by
  have haddress := Architecture.newLine_not_mem hi.address
  have hbytes : '\n' ∉ Hex.bytes i.bytes := fun hc => nomatch isCodeSpace_of_mem_bytes hc
  simp [codeLine, padTo, haddress, hbytes, hi.oneLine]

-- ============================================================= listings

theorem textOf_cons (line : String) (lines : List String) :
    (textOf (line :: lines)).toList = line.toList ++ '\n' :: (textOf lines).toList := by
  simp [textOf, String.toList_join]

/-- A text of lines is cut into them at its line feeds. -/
theorem splitAll_textOf {lines : List String} (h : ∀ line ∈ lines, '\n' ∉ line.toList) :
    splitAll '\n' (textOf lines).toList = lines.map String.toList ++ [[]] := by
  induction lines with
  | nil => rfl
  | cons line lines ih =>
    rw [List.forall_mem_cons] at h
    rw [textOf_cons, splitAll_front h.1, ih h.2, List.map_cons, List.cons_append]

/-- The lines of a listing show its instructions, in order. -/
theorem shows_codeLines {is : List Decoded} (h : ∀ i ∈ is, IsLegible a i) :
    List.Forall₂ (Shows a ((if a.isLong then 17 else 8) + 2 + bytesWidth is)) is
      ((codeLines a is).map String.toList) := by
  rw [codeLines, List.map_map, List.forall₂_map_right_iff, List.forall₂_same]
  exact fun i hi => shows_codeLine (h i hi) (length_le_bytesWidth hi)

theorem splitAll_codeLines {is : List Decoded} (h : ∀ i ∈ is, IsLegible a i) :
    splitAll '\n' (textOf (codeLines a is)).toList
      = (codeLines a is).map String.toList ++ [[]] := by
  refine splitAll_textOf fun line hline => ?_
  obtain ⟨i, hi, rfl⟩ := List.mem_map.mp hline
  exact newLine_not_mem_codeLine (h i hi) _

/-- Lines show one list of instructions. -/
theorem shown_unique {column column' : Nat} {is js : List Decoded} {lines : List (List Char)}
    (his : ∀ i ∈ is, IsLegible a i) (hjs : ∀ j ∈ js, IsLegible a j)
    (h : List.Forall₂ (Shows a column) is lines) (h' : List.Forall₂ (Shows a column') js lines) :
    is.map shown = js.map shown := by
  induction h generalizing js with
  | nil =>
    cases h'
    rfl
  | cons hline _ ih =>
    cases h' with
    | cons hline' hrest' =>
      rw [List.forall_mem_cons] at his hjs
      rw [List.map_cons, List.map_cons, hline.unique his.1 hjs.1 hline', ih his.2 hjs.2 hrest']

/-- A listing has one line for each instruction, in order, with its text in
the same column of every line and two blanks at least between the bytes and
the text; and no two lists of instructions have the same listing. -/
theorem listing_legible (a : Architecture) (is : List Decoded) (h : ∀ i ∈ is, IsLegible a i) :
    (∃ column lines, splitAll '\n' (textOf (codeLines a is)).toList = lines ++ [[]]
        ∧ List.Forall₂ (Shows a column) is lines)
      ∧ ∀ js : List Decoded, (∀ j ∈ js, IsLegible a j) →
        textOf (codeLines a js) = textOf (codeLines a is) → js.map shown = is.map shown := by
  refine ⟨⟨_, _, splitAll_codeLines h, shows_codeLines h⟩, fun js hjs hsame => ?_⟩
  have hlines : (codeLines a js).map String.toList = (codeLines a is).map String.toList := by
    have hcut := splitAll_codeLines hjs
    rw [hsame, splitAll_codeLines h] at hcut
    exact (List.append_cancel_right hcut).symm
  exact shown_unique hjs h (shows_codeLines hjs) (hlines ▸ shows_codeLines h)

/-- Two instructions of different lengths. -/
def twoNops : List Decoded :=
  [⟨0x10, [0x90], "nop", none⟩, ⟨0x11, [0x0f, 0x1f, 0x00], "nop dword ptr [rax]", none⟩]

theorem listing_legible_twoNops :
    (∀ i ∈ twoNops, IsLegible .x86 i)
      ∧ textOf (codeLines .x86 twoNops)
        = "00000010  90      nop\n00000011  0f1f00  nop dword ptr [rax]\n"
      ∧ (∃ column lines, splitAll '\n' (textOf (codeLines .x86 twoNops)).toList = lines ++ [[]]
        ∧ List.Forall₂ (Shows .x86 column) twoNops lines)
      ∧ ∀ js : List Decoded, (∀ j ∈ js, IsLegible .x86 j) →
        textOf (codeLines .x86 js) = textOf (codeLines .x86 twoNops) →
        js.map shown = twoNops.map shown := by
  have hlegible : ∀ i ∈ twoNops, IsLegible .x86 i := by
    intro i hi
    rcases List.mem_pair.mp hi with rfl | rfl
    · exact ⟨fun _ => by decide, by decide, by decide⟩
    · exact ⟨fun _ => by decide, by decide, by decide⟩
  exact ⟨hlegible, by decide, listing_legible .x86 twoNops hlegible⟩

end ClrListing.Listing
