/-
Lines that compilers print are read as the diagnostics they tell of.

A line has a severity, a code and a message, and before them, in front of a
closing parenthesis, a colon and a blank, may have the file and a location
in it. The first such end decides what a line is. If the path of the file
has none, it is that of the location, whatever is in the message
(`parseLine_locatedLine`). A line without a location is read as it is meant
exactly if there is no such end in it at all (`parseLine_plainLine_iff`):
one in the message is taken for that of a location too.
-/
import ClrListing.Lowering.External
import ClrListing.Proofs.Text.Search

namespace ClrListing

open Source Text

-- =========================================================== severity

namespace Severity

/-- Whether a word spells a severity, in any mix of letter cases. -/
def Spells (s : Severity) (word : List Char) : Prop :=
  word.map Char.toLower = s.name.toList.map Char.toLower

instance (s : Severity) (word : List Char) : Decidable (s.Spells word) :=
  inferInstanceAs (Decidable (_ = _))

theorem lowerAscii_eq_toLower (c : Char) : lowerAscii c = c.toLower := by
  unfold lowerAscii Char.toLower
  by_cases h : c.val ≥ 'A'.val ∧ c.val ≤ 'Z'.val
  · have hupper : (decide ('A' ≤ c) && decide (c ≤ 'Z')) = true := by
      rw [Bool.and_eq_true, decide_eq_true_eq, decide_eq_true_eq]
      exact h
    have hle : c.val.toNat ≤ 90 := UInt32.le_iff_toNat_le.mp h.2
    have hmod : (c.val + ('a'.val - 'A'.val)).toNat = c.toNat + 32 := by
      rw [UInt32.toNat_add, show ('a'.val - 'A'.val).toNat = 32 by decide,
        Nat.mod_eq_of_lt (by omega)]
      rfl
    rw [if_pos hupper, dif_pos h, ← hmod]
    exact Char.ofNat_toNat ⟨c.val + ('a'.val - 'A'.val), _⟩
  · have hother : ¬ (decide ('A' ≤ c) && decide (c ≤ 'Z')) = true := by
      rw [Bool.and_eq_true, decide_eq_true_eq, decide_eq_true_eq]
      exact h
    rw [if_neg hother, dif_neg h]

theorem ofWord?_of_spells {s : Severity} {word : List Char} (h : s.Spells word) :
    ofWord? word = some s := by
  have hlower : word.map lowerAscii = s.name.toList.map Char.toLower := by
    rw [List.map_congr_left fun c _ => lowerAscii_eq_toLower c]
    exact h
  unfold ofWord?
  rw [hlower]
  cases s <;> decide

theorem toLower_of_isBlank {c : Char} (h : isBlank c = true) : c.toLower = c := by
  have hspace : c = ' ' → c.toNat = 32 := by
    rintro rfl
    rfl
  have hother : ¬ (65 ≤ c.toNat ∧ c.toNat ≤ 90) := by
    unfold isBlank at h
    grind
  refine dif_neg fun hupper => hother ?_
  rw [ge_iff_le, UInt32.le_iff_toNat_le, UInt32.le_iff_toNat_le] at hupper
  exact hupper

/-- A severity is spelled with letters. -/
theorem Spells.not_mem {s : Severity} {word : List Char} (h : s.Spells word) {c : Char}
    (hc : c.toLower ∉ s.name.toList.map Char.toLower) : c ∉ word := by
  intro hmem
  rw [← h] at hc
  exact hc (List.mem_map_of_mem hmem)

theorem Spells.isWord {s : Severity} {word : List Char} (h : s.Spells word) : IsWord word := by
  have hletters : (s.name.toList.map Char.toLower).all (fun c => !isBlank c) = true := by
    cases s <;> decide
  constructor
  · rintro rfl
    cases s <;> exact absurd h (by decide)
  · intro c hc
    have hlower := List.all_eq_true.mp hletters c.toLower (h ▸ List.mem_map_of_mem hc)
    by_contra hblank
    rw [Bool.not_eq_false] at hblank
    rw [toLower_of_isBlank hblank, hblank] at hlower
    cases hlower

end Severity

-- ============================================================== lines

namespace Diagnostic

/-- A line with a diagnostic on it, without a location. -/
def plainLine (word code message : String) : String := word ++ " " ++ code ++ ": " ++ message

/-- A line with a diagnostic on it and where it applies. -/
def locatedLine (path : String) (location : Location) (word code message : String) : String :=
  path ++ "(" ++ location.line.repr ++ "," ++ location.column.repr ++ "): "
    ++ plainLine word code message

/-- Whether severity, code and message can be told apart on a line. -/
structure IsPrintable (severity : Severity) (word code message : String) : Prop where
  word : severity.Spells word.toList
  code : IsWord code.toList
  message : EndsVisibly message.toList

section Lines

variable {severity : Severity} {word code message : String}

theorem toList_plainLine (word code message : String) : (plainLine word code message).toList
    = word.toList ++ ' ' :: code.toList ++ ([':', ' '] ++ message.toList) := by
  unfold plainLine
  simp only [String.toList_append, List.append_assoc]
  rfl

theorem readBody_plainLine (h : IsPrintable severity word code message)
    (location : Option Location) :
    readBody location (plainLine word code message).toList
      = some ⟨severity, code, message, location⟩ := by
  have hcolon : ':' ∉ word.toList ++ [' '] := by
    rw [List.mem_append, not_or]
    exact ⟨h.word.not_mem (by cases severity <;> decide), by decide⟩
  have hhead : ¬ [':', ' '] <:+: word.toList ++ ' ' :: code.toList := by
    rw [List.append_cons, infix_append_of_not_mem hcolon]
    intro hin
    have hblank := h.code.2 ' ' (hin.subset (by decide))
    exact absurd hblank (by decide)
  have hcut : splitOnce [':', ' ']
      (word.toList ++ ' ' :: code.toList ++ ([':', ' '] ++ message.toList))
        = some (word.toList ++ ' ' :: code.toList, message.toList) :=
    splitOnce_append (by decide) hhead
  unfold readBody
  rw [toList_plainLine, hcut]
  simp only [Option.bind_eq_bind, Option.bind_some, words_pair h.word.isWord h.code,
    Severity.ofWord?_of_spells h.word, String.ofList_toList]
  rfl

theorem endsVisibly_plainLine (h : IsPrintable severity word code message) :
    EndsVisibly (plainLine word code message).toList := by
  rw [toList_plainLine, ← List.append_assoc]
  exact h.message.append_left _

/-- The coordinates of a location, as they are written. -/
def coordinates (location : Location) : List Char :=
  location.line.repr.toList ++ ',' :: location.column.repr.toList

theorem not_mem_coordinates {c : Char} (location : Location) (hdigit : c.isDigit = false)
    (hc : c ≠ ',') : c ∉ coordinates location := by
  rw [coordinates, List.mem_append, List.mem_cons, not_or, not_or]
  exact ⟨not_mem_repr _ hdigit, hc, not_mem_repr _ hdigit⟩

/-- The coordinates stand behind the last opening parenthesis. -/
theorem readLocation_append (path : List Char) {location : Location}
    (hline : location.line < 0x100000000) (hcolumn : location.column < 0x100000000) :
    readLocation (path ++ '(' :: coordinates location) = some location := by
  have hcomma : ∀ n : Nat, ',' ∉ n.repr.toList := fun n => not_mem_repr n (by decide)
  unfold readLocation
  rw [afterLast_append (not_mem_coordinates location (by decide) (by decide)), coordinates]
  simp only [Option.bind_eq_bind, Option.bind_some, splitAll_append (hcomma _),
    splitAll_of_not_mem (hcomma _), List.singleton_append, (isWord_repr _).trim,
    readBounded_repr hline, readBounded_repr hcolumn]
  rfl

theorem toList_locatedLine (path : String) (location : Location) (word code message : String) :
    (locatedLine path location word code message).toList
      = path.toList ++ '(' :: (coordinates location
        ++ (locationEnd ++ (plainLine word code message).toList)) := by
  unfold locatedLine coordinates
  simp only [String.toList_append, List.append_assoc]
  rfl

/-- What stands before the end of a location has none in it if the path has
none. -/
theorem not_infix_located {path : List Char} (location : Location)
    (hpath : ¬ locationEnd <:+: path) :
    ¬ locationEnd <:+: path ++ '(' :: coordinates location := by
  intro hin
  rcases infix_of_append_cons (by decide) hin with hpath' | hcoordinates
  · exact hpath hpath'
  · exact not_mem_coordinates (c := ')') location (by decide) (by decide)
      (hcoordinates.subset (by decide))

theorem parseLine_of_cut {line : String} {before body : List Char}
    (h : splitOnce locationEnd (trim line.toList) = some (before, body)) :
    parseLine line = (readLocation before).bind fun location => readBody (some location) body := by
  unfold parseLine
  simp only [h]
  rfl

theorem parseLine_of_not_cut {line : String}
    (h : splitOnce locationEnd (trim line.toList) = none) :
    parseLine line = readBody none (trim line.toList) := by
  unfold parseLine
  simp only [h]

/-- A line with a location is read as it is meant, blanks at its ends apart,
if the path of the file has no end of a location in it. -/
theorem parseLine_locatedLine (h : IsPrintable severity word code message)
    {front path back : String} {location : Location}
    (hfront : ∀ c ∈ front.toList, isBlank c = true) (hback : ∀ c ∈ back.toList, isBlank c = true)
    (hpath : ¬ locationEnd <:+: path.toList) (hline : location.line < 0x100000000)
    (hcolumn : location.column < 0x100000000) :
    parseLine (front ++ locatedLine path location word code message ++ back)
      = some ⟨severity, code, message, some location⟩ := by
  have hend : EndsVisibly
      ('(' :: (coordinates location ++ (locationEnd ++ (plainLine word code message).toList))) := by
    rw [← List.append_assoc, ← List.cons_append]
    exact (endsVisibly_plainLine h).append_left _
  -- the blanks that the path itself begins with are trimmed off too
  have htrim := trim_append (s := path.toList) hfront (by decide) hend hback
  have hrest : ¬ locationEnd <:+: path.toList.dropWhile isBlank := fun hin =>
    hpath (hin.trans (List.dropWhile_suffix isBlank).isInfix)
  have hcut : splitOnce locationEnd
      (trim (front ++ locatedLine path location word code message ++ back).toList)
        = some (path.toList.dropWhile isBlank ++ '(' :: coordinates location,
            (plainLine word code message).toList) := by
    rw [String.toList_append, String.toList_append, toList_locatedLine, htrim, ← List.cons_append,
      ← List.append_assoc]
    exact splitOnce_append (by decide) (not_infix_located location hrest)
  rw [parseLine_of_cut hcut, readLocation_append _ hline hcolumn, Option.bind_some]
  exact readBody_plainLine h (some location)

/-- Parentheses, colons and blanks in the path, what looks like a location in
the message, and the largest line. -/
theorem parseLine_with_parentheses :
    locatedLine " d: (x)/a.cs" ⟨4294967295, 1⟩ "wARNING" "CS1" "see f(3,4): here"
        = " d: (x)/a.cs(4294967295,1): wARNING CS1: see f(3,4): here"
      ∧ parseLine ("\t" ++ locatedLine " d: (x)/a.cs" ⟨4294967295, 1⟩ "wARNING" "CS1"
          "see f(3,4): here" ++ " \r")
        = some ⟨.warning, "CS1", "see f(3,4): here", some ⟨4294967295, 1⟩⟩ :=
  ⟨by decide +kernel, parseLine_locatedLine ⟨by decide, by decide, ⟨'e', rfl, by decide⟩⟩
    (List.all_eq_true.mp (by decide)) (List.all_eq_true.mp (by decide)) (by decide) (by decide)
    (by decide)⟩

-- ================================================== without a location

/-- Whether a line without a location has nothing in it that ends one. -/
def EndsNoLocation (code message : String) : Prop :=
  code.toList.getLast? ≠ some ')' ∧ ¬ locationEnd <:+: message.toList

instance (code message : String) : Decidable (EndsNoLocation code message) :=
  inferInstanceAs (Decidable (_ ∧ _))

/-- The colon behind a code is part of the end of a location only if the code
ends in a parenthesis. -/
theorem infix_code_iff {code message : List Char} (hcode : ∀ c ∈ code, isBlank c = false) :
    locationEnd <:+: code ++ ([':', ' '] ++ message)
      ↔ code.getLast? = some ')' ∨ locationEnd <:+: message := by
  induction code with
  | nil =>
    rw [List.nil_append, locationEnd, infix_append_of_not_mem (by decide)]
    exact (or_iff_right nofun).symm
  | cons c rest ih =>
    rw [List.forall_mem_cons] at hcode
    rw [List.cons_append, List.infix_cons_iff, ih hcode.2, ← or_assoc, locationEnd,
      List.cons_prefix_cons]
    refine or_congr_left ?_
    cases rest with
    | nil =>
      have hfront : [':', ' '] <+: [] ++ ([':', ' '] ++ message) := List.prefix_append _ _
      simp only [hfront, and_true, List.getLast?_nil, List.getLast?_singleton, Option.some.injEq,
        reduceCtorEq, or_false]
      exact eq_comm
    | cons d rest =>
      have hinside : ¬ [':', ' '] <+: d :: rest ++ ([':', ' '] ++ message) := by
        rw [List.cons_append, List.cons_prefix_cons]
        rintro ⟨-, hblank⟩
        cases rest with
        | nil =>
          rw [List.nil_append, List.cons_append, List.cons_prefix_cons] at hblank
          exact absurd hblank.1 (by decide)
        | cons e rest =>
          rw [List.cons_append, List.cons_prefix_cons] at hblank
          have he := hcode.2 e (List.mem_cons_of_mem _ List.mem_cons_self)
          rw [← hblank.1] at he
          exact absurd he (by decide)
      rw [List.getLast?_cons_cons]
      exact or_iff_right fun h => hinside h.2

theorem infix_plainLine_iff (h : IsPrintable severity word code message) :
    locationEnd <:+: (plainLine word code message).toList ↔ ¬ EndsNoLocation code message := by
  have hword : ')' ∉ word.toList ++ [' '] := by
    rw [List.mem_append, not_or]
    exact ⟨h.word.not_mem (by cases severity <;> decide), by decide⟩
  rw [toList_plainLine, List.append_cons, List.append_assoc, locationEnd,
    infix_append_of_not_mem hword, ← locationEnd, infix_code_iff h.code.2, EndsNoLocation,
    not_and_or, not_not, not_not]

theorem trim_plainLine (h : IsPrintable severity word code message) :
    trim (plainLine word code message).toList = (plainLine word code message).toList := by
  have hend := endsVisibly_plainLine h
  rw [toList_plainLine] at hend ⊢
  cases hword : word.toList with
  | nil => exact absurd hword h.word.isWord.1
  | cons c rest =>
    rw [hword] at hend
    exact trim_of_visible (h.word.isWord.2 c (hword ▸ List.mem_cons_self)) hend

theorem location_of_readBody {location : Option Location} {body : List Char} {d : Diagnostic}
    (h : readBody location body = some d) : d.location = location := by
  unfold readBody at h
  obtain ⟨⟨head, message⟩, -, h⟩ := Option.bind_eq_some_iff.mp h
  dsimp only at h
  split at h
  · obtain ⟨s, -, h⟩ := Option.bind_eq_some_iff.mp h
    cases h
    rfl
  · cases h

/-- A line with the end of a location in it is read as having one, or not at
all. -/
theorem isSome_location_of_infix {line : String} {d : Diagnostic}
    (hin : locationEnd <:+: trim line.toList) (h : parseLine line = some d) :
    d.location.isSome = true := by
  cases hcut : splitOnce locationEnd (trim line.toList) with
  | none => exact absurd hin ((splitOnce_eq_none_iff (by decide)).mp hcut)
  | some parts =>
    rw [parseLine_of_cut hcut] at h
    obtain ⟨location, -, h⟩ := Option.bind_eq_some_iff.mp h
    rw [location_of_readBody h]
    rfl

theorem parseLine_plainLine (h : IsPrintable severity word code message)
    (hnone : EndsNoLocation code message) :
    parseLine (plainLine word code message) = some ⟨severity, code, message, none⟩ := by
  have hcut : splitOnce locationEnd (trim (plainLine word code message).toList) = none := by
    rw [splitOnce_eq_none_iff (by decide), trim_plainLine h, infix_plainLine_iff h, not_not]
    exact hnone
  rw [parseLine_of_not_cut hcut, trim_plainLine h]
  exact readBody_plainLine h none

/-- What is read from a line without a location. -/
structure ReadsBack (line : String) (severity : Severity) (code message : String) : Prop where
  /-- It is what was meant only if nothing in it ends a location. -/
  meant_iff : parseLine line = some ⟨severity, code, message, none⟩ ↔ EndsNoLocation code message
  /-- Otherwise it is nothing, or something with a location. -/
  located : ¬ EndsNoLocation code message → ∀ d, parseLine line = some d →
    d.location.isSome = true

theorem readsBack_plainLine (h : IsPrintable severity word code message) :
    ReadsBack (plainLine word code message) severity code message := by
  have hlocated : ¬ EndsNoLocation code message → ∀ d,
      parseLine (plainLine word code message) = some d → d.location.isSome = true := by
    intro hends d hd
    rw [← infix_plainLine_iff h, ← trim_plainLine h] at hends
    exact isSome_location_of_infix hends hd
  refine ⟨⟨fun hmeant => ?_, parseLine_plainLine h⟩, hlocated⟩
  by_contra hends
  exact Bool.false_ne_true (hlocated hends _ hmeant)

end Lines

/-- A diagnostic on a line without a location is read as it is meant exactly
if nothing on the line ends a location; so is a displayed diagnostic. Then it
is among the diagnostics of whatever the line is printed in. -/
theorem reads_plainLine {d : Diagnostic} (hcode : IsWord d.code.toList)
    (hmessage : EndsVisibly d.message.toList) :
    (∀ word : String, d.severity.Spells word.toList →
        ReadsBack (plainLine word d.code d.message) d.severity d.code d.message
        ∧ ∀ printed, (plainLine word d.code d.message).toList ∈ lines (Utf8.decodeLossy printed) →
          EndsNoLocation d.code d.message →
          ⟨d.severity, d.code, d.message, none⟩ ∈ Lowering.ExternalCompiler.diagnosticsIn printed)
      ∧ ReadsBack d.display d.severity d.code d.message := by
  have hdisplay : IsPrintable d.severity d.severity.name d.code d.message := ⟨rfl, hcode, hmessage⟩
  refine ⟨fun word hword => ⟨readsBack_plainLine ⟨hword, hcode, hmessage⟩, ?_⟩,
    readsBack_plainLine hdisplay⟩
  intro printed hline hends
  refine List.mem_filterMap.mpr ⟨_, hline, ?_⟩
  rw [String.ofList_toList]
  exact parseLine_plainLine ⟨hword, hcode, hmessage⟩ hends

/-- A source file that is not there. -/
def missingFile (name : String) : Diagnostic :=
  .error "CS2001" ("Source file '" ++ name ++ "' could not be found.")

/-- A missing file is reported if its name does not end a location. -/
theorem reads_missingFile :
    parseLine "ERROR CS2001: Source file 'x (1).cs' could not be found."
        = some (missingFile "x (1).cs")
      ∧ parseLine (missingFile "x (copy): y.cs").display ≠ some (missingFile "x (copy): y.cs") := by
  constructor
  · have hreads := reads_plainLine (d := missingFile "x (1).cs") (by decide) ⟨'.', rfl, by decide⟩
    exact ((hreads.1 "ERROR" (by decide)).1.meant_iff).mpr (by decide)
  · have hreads := reads_plainLine (d := missingFile "x (copy): y.cs") (by decide)
      ⟨'.', rfl, by decide⟩
    exact fun hmeant => absurd (hreads.2.meant_iff.mp hmeant) (by decide)

/-- The end of a location in a message drops the line, also the only error
that a program tells of, or makes something else of it. -/
theorem message_taken_for_location :
    parseLine "error CS2001: Source file 'x (copy): y.cs' could not be found." = none
      ∧ parseLine (missingFile "x (copy): y.cs").display = none
      ∧ Lowering.ExternalCompiler.diagnosticsIn
          (Utf8.encode "error CS2001: Source file 'x (copy): y.cs' could not be found.\n".toList)
        = []
      ∧ parseLine "error CS1: f(3,4): warning CS2: y" = some ⟨.warning, "CS2", "y", some ⟨3, 4⟩⟩ := by
  decide +kernel

end Diagnostic

end ClrListing
