/-
Types that can be written, and the lexemes they are written with.

A written type has blanks behind the commas between types and nowhere
else, so its lexemes touch and the scanner must not join two of them:
`>` before `>` must stay `>`, and `?` before `>`, `,` or `[` a question
mark. What a text is cut into depends on what stands behind it, though on
the first character only, so the statement that goes through the induction
has that in it. A text composes (`Composes`) with every other whose first
character is one that may follow it; written one behind the other they
have the lexemes of both. Which characters may follow an operator is read
off the table of operators, and a question mark is the only part of a
written type that the table forbids behind another such part, which is why
no type is nullable twice.
-/
import ClrListing.Proofs.Source.Following
import ClrListing.Syntax.Declaration

namespace ClrListing.Syntax

open Source Text Text.OneByOne

-- ======================================================= writable types

/-- Whether a text is an identifier: it is one lexeme, and no keyword. -/
def IsIdentifier (name : String) : Prop :=
  lexemes name
    = .ok [⟨.identifier, name, ⟨0, name.utf8ByteSize⟩⟩, endLexeme name]

instance (name : String) : Decidable (IsIdentifier name) := inferInstanceAs (Decidable (_ = _))

namespace TypeExpr

/-- Whether a type is written with a question mark at its end. -/
def IsNullable : TypeExpr → Prop
  | .nullable _ => True
  | _ => False

mutual

/-- Whether a type can be written so that it is read again: keywords and
identifiers are such, names have segments, arrays have dimensions, tuples
have elements, and there are no two question marks at once. -/
def Writable : TypeExpr → Prop
  | .predefined keyword => keyword ∈ predefinedKeywords
  | .named root segments =>
    (∀ name ∈ root, IsIdentifier name) ∧ segments ≠ [] ∧ SegmentsWritable segments
  | .array element rank => element.Writable ∧ 1 ≤ rank
  | .nullable inner => inner.Writable ∧ ¬ inner.IsNullable
  | .pointer inner => inner.Writable
  | .tuple elements => elements ≠ [] ∧ AllWritable elements

def SegmentsWritable : List NameSegment → Prop
  | [] => True
  | segment :: rest => SegmentWritable segment ∧ SegmentsWritable rest

def SegmentWritable : NameSegment → Prop
  | ⟨name, args⟩ => IsIdentifier name ∧ AllWritable args

def AllWritable : List TypeExpr → Prop
  | [] => True
  | t :: rest => t.Writable ∧ AllWritable rest

end

mutual

/-- The lexemes that a type is written with. -/
def written : TypeExpr → List (LexemeKind × String)
  | .predefined keyword => [(.predefined, keyword)]
  | .named none segments => writtenSegments segments
  | .named (some root) segments =>
    (.identifier, root) :: (.doubleColon, "::") :: writtenSegments segments
  | .array element rank =>
    element.written
      ++ (.lbracket, "[") :: (List.replicate (rank - 1) (.comma, ",") ++ [(.rbracket, "]")])
  | .nullable inner => inner.written ++ [(.question, "?")]
  | .pointer inner => inner.written ++ [(.star, "*")]
  | .tuple elements => (.lparen, "(") :: (writtenAll elements ++ [(.rparen, ")")])

def writtenSegments : List NameSegment → List (LexemeKind × String)
  | [] => []
  | [segment] => writtenSegment segment
  | segment :: rest => writtenSegment segment ++ (.dot, ".") :: writtenSegments rest

def writtenSegment : NameSegment → List (LexemeKind × String)
  | ⟨name, []⟩ => [(.identifier, name)]
  | ⟨name, arg :: args⟩ =>
    (.identifier, name) :: (.lt, "<") :: (writtenAll (arg :: args) ++ [(.gt, ">")])

def writtenAll : List TypeExpr → List (LexemeKind × String)
  | [] => []
  | [t] => t.written
  | t :: rest => t.written ++ (.comma, ",") :: writtenAll rest

end

end TypeExpr

-- ============================================================ lexemes

/-- A text that is cut into one lexeme, which starts with it and has all its
characters, opens with that lexeme. -/
theorem rule_of_cuts {offset : Nat} {s : List Char} {l : Lexeme} (h : Cuts offset s [l])
    (hstart : l.span.start = offset) (htext : l.text.toList = s) :
    s ≠ [] ∧ Rule s ⟨.lexeme l.kind, s.length⟩ := by
  cases h with
  | @trivia _ front _ _ hfront _ hrest =>
    have hle := (hrest.le_places l List.mem_cons_self).1
    have hpos := byteSize_pos hfront
    omega
  | @lexeme _ front rest kind _ hfront hrule _ =>
    rw [String.toList_ofList, List.self_eq_append_right] at htext
    subst htext
    rw [List.append_nil] at hrule ⊢
    exact ⟨hfront, hrule⟩

/-- A text that is one lexeme opens with it. -/
theorem rule_of_lexemes {text : String} {kind : LexemeKind}
    (h : lexemes text = .ok [⟨kind, text, ⟨0, text.utf8ByteSize⟩⟩, endLexeme text]) :
    text.toList ≠ [] ∧ Rule text.toList ⟨.lexeme kind, text.toList.length⟩ := by
  obtain ⟨tokens, hcuts, htokens⟩ := lexemes_eq_ok_iff.mp h
  have hcancel : [_] = tokens := List.append_cancel_right htokens
  subst hcancel
  exact rule_of_cuts hcuts rfl rfl

/-- A text that has these lexemes in front of any other, as long as the
first character of the other is one that may follow it. -/
def Composes (text : List Char) (readings : List (LexemeKind × String)) (follow : Char → Prop) :
    Prop :=
  ∀ (rest : List Char) (more : List (LexemeKind × String)), (∀ c ∈ rest.head?, follow c) →
    HasReadings rest more → HasReadings (text ++ rest) (readings ++ more)

namespace Composes

variable {text text' : List Char} {readings readings' : List (LexemeKind × String)}
  {follow follow' : Char → Prop}

theorem mono (h : Composes text readings follow) (hless : ∀ c, follow' c → follow c) :
    Composes text readings follow' :=
  fun rest more hrest => h rest more fun c hc => hless c (hrest c hc)

theorem append (h : Composes text readings follow) (h' : Composes text' readings' follow')
    (hne : text' ≠ []) (hhead : ∀ c ∈ text'.head?, follow c) :
    Composes (text ++ text') (readings ++ readings') follow' := by
  intro rest more hrest hmore
  rw [List.append_assoc, List.append_assoc]
  refine h _ _ (fun c hc => hhead c ?_) (h' rest more hrest hmore)
  rwa [List.head?_append_of_ne_nil _ hne] at hc

theorem blank : Composes [' '] [] fun _ => True :=
  fun _ _ _ hmore => hmore.blanks (by decide)

/-- A word that is one lexeme. -/
theorem word {word : String} {kind : LexemeKind} (hkind : kind ∈ wordKinds)
    (h : lexemes word = .ok [⟨kind, word, ⟨0, word.utf8ByteSize⟩⟩, endLexeme word]) :
    Composes word.toList [(kind, word)] fun c => isIdentifierPart c = false := by
  intro rest more hrest hmore
  obtain ⟨hne, hrule⟩ := rule_of_lexemes h
  have hreads := hmore.lexeme hne (hrule.word_append hkind hrest)
  rwa [String.ofList_toList] at hreads

/-- An operator, behind which none of the characters stands that would make
a longer one of it. -/
theorem operator (spelling : String) (kind : LexemeKind) (longer : List Char)
    (hmem : (spelling.toList, kind) ∈ operators) (hslash : spelling.toList.head? ≠ some '/')
    (hlonger : ∀ c ∈ goings spelling.toList, c ∈ longer) :
    Composes spelling.toList [(kind, spelling)] fun c => c ∉ longer ∧ isAsciiDigit c = false := by
  intro rest more hrest hmore
  have hne : ∀ op ∈ operators, op.1 ≠ [] := by decide
  have hrule := Rule.operator_append hmem (fun c hc h => (hrest c hc).1 (hlonger c h))
    (fun _ c hc => (hrest c hc).2) hslash
  have hreads := hmore.lexeme (hne _ hmem) hrule
  rwa [String.ofList_toList] at hreads

/-- The commas between the brackets of an array, and the bracket that closes
them. -/
theorem commas (n : Nat) : Composes (List.replicate n ',' ++ [']'])
    (List.replicate n (.comma, ",") ++ [(.rbracket, "]")])
    fun c => c ∉ [] ∧ isAsciiDigit c = false := by
  have hbracket := operator "]" .rbracket [] (by decide) (by decide) (by decide)
  have hcomma := operator "," .comma [] (by decide) (by decide) (by decide)
  induction n with
  | zero => exact hbracket
  | succ n ih =>
    rw [List.replicate_succ, List.replicate_succ]
    refine hcomma.append ih (by simp) ?_
    cases n <;> simp [List.replicate_succ] <;> decide

end Composes

-- =============================================================== types

/-- Whether a character may come first in a written type. -/
def opensType (c : Char) : Bool := c = '(' || c = '@' || isIdentifierStart c

/-- What may stand behind a segment of a name in a written type. -/
def segmentFollow : List Char := [',', '>', ')', '[', '?', '*', '.']

/-- A text that is written with these lexemes and starts like a type. -/
structure Spells (text : String) (readings : List (LexemeKind × String)) (follow : Char → Prop) :
    Prop where
  opens : ∃ c rest, text.toList = c :: rest ∧ opensType c = true
  composes : Composes text.toList readings follow

namespace Spells

variable {text text' : String} {readings readings' : List (LexemeKind × String)}
  {follow follow' : Char → Prop}

theorem mono (h : Spells text readings follow) (hless : ∀ c, follow' c → follow c) :
    Spells text readings follow' :=
  ⟨h.opens, h.composes.mono hless⟩

theorem append (h : Spells text readings follow)
    (h' : Composes text'.toList readings' follow') (hne : text'.toList ≠ [])
    (hhead : ∀ c ∈ text'.toList.head?, follow c) :
    Spells (text ++ text') (readings ++ readings') follow' := by
  obtain ⟨c, rest, hopens, hc⟩ := h.opens
  constructor
  · exact ⟨c, rest ++ text'.toList, by rw [String.toList_append, hopens, List.cons_append], hc⟩
  · rw [String.toList_append]
    exact h.composes.append h' hne hhead

theorem toList_ne_nil (h : Spells text readings follow) : text.toList ≠ [] := by
  obtain ⟨c, rest, hopens, -⟩ := h.opens
  rw [hopens]
  exact List.cons_ne_nil _ _

theorem head (h : Spells text readings follow) : ∀ c ∈ text.toList.head?, opensType c = true := by
  obtain ⟨c, rest, hopens, hc⟩ := h.opens
  intro d hd
  rw [hopens] at hd
  cases hd
  exact hc

theorem word {word : String} {kind : LexemeKind} (hkind : kind ∈ wordKinds)
    (h : lexemes word = .ok [⟨kind, word, ⟨0, word.utf8ByteSize⟩⟩, endLexeme word]) :
    Spells word [(kind, word)] fun c => isIdentifierPart c = false := by
  refine ⟨?_, .word hkind h⟩
  obtain ⟨c, rest, hc, ⟨hword, -⟩ | ⟨hword, -⟩⟩ := (rule_of_lexemes h).2.word_cases hkind
  · exact ⟨c, rest, hword, by simp [opensType, hc]⟩
  · exact ⟨'@', c :: rest, hword, by decide⟩

/-- An operator behind what is written. -/
theorem sign (h : Spells text readings follow) (spelling : String) (kind : LexemeKind)
    (longer : List Char) (hmem : (spelling.toList, kind) ∈ operators)
    (hslash : spelling.toList.head? ≠ some '/') (hlonger : ∀ c ∈ goings spelling.toList, c ∈ longer)
    (hhead : ∀ c ∈ spelling.toList.head?, follow c) :
    Spells (text ++ spelling) (readings ++ [(kind, spelling)])
      fun c => c ∉ longer ∧ isAsciiDigit c = false := by
  have hne : ∀ op ∈ operators, op.1 ≠ [] := by decide
  exact h.append (.operator spelling kind longer hmem hslash hlonger) (hne _ hmem) hhead

/-- Another text that starts like a type behind what is written. -/
theorem followed (h : Spells text readings follow) (h' : Spells text' readings' follow')
    (hfollow : ∀ c, opensType c = true → follow c) :
    Spells (text ++ text') (readings ++ readings') follow' :=
  h.append h'.composes h'.toList_ne_nil fun c hc => hfollow c (h'.head c hc)

end Spells

theorem not_digit_of_opensType {c : Char} (h : opensType c = true) : isAsciiDigit c = false := by
  have hdigits : ∀ d ∈ ['0', '1', '2', '3', '4', '5', '6', '7', '8', '9'], opensType d = false := by
    decide
  by_contra hdigit
  rw [Bool.not_eq_false, isAsciiDigit_iff] at hdigit
  rw [hdigits c hdigit] at h
  cases h

/-- A type may stand behind an operator that none of its first characters
makes longer. -/
theorem opensType_follows {longer : List Char} (hlonger : ∀ d ∈ longer, opensType d = false)
    (c : Char) (h : opensType c = true) : c ∉ longer ∧ isAsciiDigit c = false := by
  refine ⟨fun hmem => ?_, not_digit_of_opensType h⟩
  rw [hlonger c hmem] at h
  cases h

namespace TypeExpr

/-- What may stand behind a type in a written type. -/
def typeFollow : List Char := [',', '>', ')', '[', '?', '*']

/-- Whether a character may stand behind a type in a written type. -/
def Follows (t : TypeExpr) (c : Char) : Prop := c ∈ typeFollow ∧ (t.IsNullable → c ≠ '?')

theorem predefined_lexemes : ∀ keyword ∈ predefinedKeywords, lexemes keyword
    = .ok [⟨.predefined, keyword, ⟨0, keyword.utf8ByteSize⟩⟩, endLexeme keyword] := by
  decide +kernel

/-- The brackets of an array behind what is written. -/
theorem spells_brackets {text : String} {readings : List (LexemeKind × String)}
    {follow : Char → Prop} (h : Spells text readings follow) (hfollow : follow '[') (rank : Nat) :
    Spells (text ++ "[" ++ rankCommas rank ++ "]")
      (readings
        ++ (.lbracket, "[") :: (List.replicate (rank - 1) (.comma, ",") ++ [(.rbracket, "]")]))
      fun c => c ∉ [] ∧ isAsciiDigit c = false := by
  have hcommas : (rankCommas rank ++ "]").toList = List.replicate (rank - 1) ',' ++ [']'] := by
    rw [String.toList_append, rankCommas, String.toList_ofList]
    rfl
  have hopen := h.sign "[" .lbracket [] (by decide) (by decide)
    (by decide) (by rintro c ⟨⟩; exact hfollow)
  have hclosed := hopen.append (hcommas ▸ Composes.commas (rank - 1)) (by rw [hcommas]; simp) ?_
  · rwa [← String.append_assoc, List.append_assoc] at hclosed
  · rw [hcommas]
    cases rank - 1 <;> simp [List.replicate_succ] <;> decide

mutual

/-- A type is written with its lexemes. -/
theorem spells_display : ∀ t : TypeExpr, t.Writable → Spells t.display t.written t.Follows
  | .predefined keyword, h => by
    rw [Writable] at h
    rw [display, written]
    refine (Spells.word (by decide) (predefined_lexemes keyword h)).mono fun c hc => ?_
    exact (by decide : ∀ c ∈ typeFollow, isIdentifierPart c = false) c hc.1
  | .named none segments, h => by
    rw [Writable] at h
    rw [display, written]
    refine (spells_segments segments h.2.1 h.2.2).mono fun c hc => ?_
    exact (by decide : ∀ c ∈ typeFollow, c ∈ segmentFollow) c hc.1
  | .named (some root) segments, h => by
    rw [Writable] at h
    rw [display, written]
    have hroot := (Spells.word (by decide) (h.1 root rfl)).sign "::" .doubleColon []
      (by decide) (by decide) (by decide) (by decide)
    have hnamed := hroot.followed (spells_segments segments h.2.1 h.2.2)
      (opensType_follows (by decide))
    refine hnamed.mono fun c hc => ?_
    exact (by decide : ∀ c ∈ typeFollow, c ∈ segmentFollow) c hc.1
  | .array element rank, h => by
    rw [Writable] at h
    rw [display, written]
    refine (spells_brackets (spells_display element h.1) ?_ rank).mono fun c hc => ?_
    · exact ⟨by decide, fun _ => by decide⟩
    · exact (by decide : ∀ c ∈ typeFollow, c ∉ [] ∧ isAsciiDigit c = false) c hc.1
  | .nullable inner, h => by
    rw [Writable] at h
    rw [display, written]
    refine ((spells_display inner h.1).sign "?" .question ['?', '.'] (by decide)
      (by decide) (by decide) ?_).mono fun c hc => ?_
    · rintro c ⟨⟩
      exact ⟨by decide, fun hnullable => absurd hnullable h.2⟩
    · have hmark := hc.2 trivial
      exact (by decide : ∀ c ∈ typeFollow, c ≠ '?' → c ∉ ['?', '.'] ∧ isAsciiDigit c = false) c
        hc.1 hmark
  | .pointer inner, h => by
    rw [Writable] at h
    rw [display, written]
    refine ((spells_display inner h).sign "*" .star ['='] (by decide) (by decide)
      (by decide) ?_).mono fun c hc => ?_
    · rintro c ⟨⟩
      exact ⟨by decide, fun _ => by decide⟩
    · exact (by decide : ∀ c ∈ typeFollow, c ∉ ['='] ∧ isAsciiDigit c = false) c hc.1
  | .tuple elements, h => by
    rw [Writable] at h
    rw [display, written]
    have hopen : Spells "(" [(.lparen, "(")] fun c => c ∉ [] ∧ isAsciiDigit c = false :=
      ⟨⟨'(', [], rfl, by decide⟩, .operator "(" .lparen [] (by decide) (by decide) (by decide)⟩
    have helements := hopen.followed (spells_all elements h.1 h.2) (opensType_follows (by decide))
    have hclosed := helements.sign ")" .rparen [] (by decide) (by decide) (by decide) ?_
    · refine hclosed.mono fun c hc => ?_
      exact (by decide : ∀ c ∈ typeFollow, c ∉ [] ∧ isAsciiDigit c = false) c hc.1
    · rintro c ⟨⟩
      decide

theorem spells_segments : ∀ segments : List NameSegment, segments ≠ [] →
    SegmentsWritable segments →
    Spells (displaySegments segments) (writtenSegments segments) (· ∈ segmentFollow)
  | [], h, _ => absurd rfl h
  | [segment], _, h => by
    rw [SegmentsWritable] at h
    rw [displaySegments, writtenSegments]
    exact spells_segment segment h.1
  | segment :: next :: rest, _, h => by
    rw [SegmentsWritable] at h
    have hdot := (spells_segment segment h.1).sign "." .dot
      ['.'] (by decide) (by decide) (by decide) (by decide)
    have hall := hdot.followed (spells_segments (next :: rest) (List.cons_ne_nil _ _) h.2)
      (opensType_follows (by decide))
    rw [List.append_assoc] at hall
    rw [displaySegments, writtenSegments]
    · exact hall
    all_goals simp

theorem spells_segment : ∀ segment : NameSegment, SegmentWritable segment →
    Spells (displaySegment segment) (writtenSegment segment) (· ∈ segmentFollow)
  | ⟨name, []⟩, h => by
    rw [SegmentWritable] at h
    rw [displaySegment, writtenSegment]
    refine (Spells.word (by decide) h.1).mono fun c hc => ?_
    exact (by decide : ∀ c ∈ segmentFollow, isIdentifierPart c = false) c hc
  | ⟨name, arg :: args⟩, h => by
    rw [SegmentWritable] at h
    rw [displaySegment, writtenSegment]
    have hopen := (Spells.word (by decide) h.1).sign "<" .lt
      ['<', '='] (by decide) (by decide) (by decide) (by decide)
    have hargs := hopen.followed (spells_all (arg :: args) (List.cons_ne_nil _ _) h.2)
      (opensType_follows (by decide))
    refine (hargs.sign ">" .gt ['='] (by decide) (by decide) (by decide) ?_).mono fun c hc => ?_
    · rintro c ⟨⟩
      decide
    · exact (by decide : ∀ c ∈ segmentFollow, c ∉ ['='] ∧ isAsciiDigit c = false) c hc

theorem spells_all : ∀ types : List TypeExpr, types ≠ [] → AllWritable types →
    Spells (displayAll types) (writtenAll types) (· ∈ [',', '>', ')'])
  | [], h, _ => absurd rfl h
  | [t], _, h => by
    rw [AllWritable] at h
    rw [displayAll, writtenAll]
    refine (spells_display t h.1).mono fun c hc => ?_
    have hfollow := (by decide : ∀ c ∈ [',', '>', ')'], c ∈ typeFollow ∧ c ≠ '?') c hc
    exact ⟨hfollow.1, fun _ => hfollow.2⟩
  | t :: next :: rest, _, h => by
    rw [AllWritable] at h
    have hcomma : Composes ", ".toList [(.comma, ",")] fun _ => True :=
      (Composes.operator "," .comma [] (by decide) (by decide)
        (by decide)).append .blank (by decide) (by decide)
    have hfirst := (spells_display t h.1).append hcomma (by decide) ?_
    · have hall := hfirst.followed (spells_all (next :: rest) (List.cons_ne_nil _ _) h.2)
        fun _ _ => trivial
      rw [List.append_assoc] at hall
      rw [displayAll, writtenAll]
      · exact hall
      all_goals simp
    · rintro c ⟨⟩
      exact ⟨by decide, fun _ => by decide⟩

end

end TypeExpr

end ClrListing.Syntax
