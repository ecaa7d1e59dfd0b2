/-
Parsers only move forward.

Whatever a parser reads, it leaves the cursor where a number of single
steps take it, so a property of cursors that a single step keeps is kept
by every parser. `Advances` says so of one parser. It is a class: the
parsers are put together from smaller ones, and the instances follow how
they are put together, down to the two parsers that move the cursor.
-/
import ClrListing.Syntax.Tree

namespace ClrListing.Syntax

open Source

theorem Cursor.skip_add (c : Cursor) (m n : Nat) : (c.skip m).skip n = c.skip (m + n) := by
  induction m generalizing c with
  | zero => rw [Cursor.skip, Nat.zero_add]
  | succ m ih => rw [Cursor.skip, ih, Nat.succ_add, Cursor.skip]

namespace Parser

-- a parser with many parts makes a large instance
set_option synthInstance.maxSize 1024

-- ============================================================== the rule

/-- Where a parser succeeds, it leaves the cursor at or behind the place
where it was. -/
class Advances (p : Parser α) : Prop where
  forward : ∀ {c c' : Cursor} {a : α}, p c = .ok (a, c') → ∃ n, c' = c.skip n

instance (a : α) : Advances (pure a : Parser α) where
  forward h := by
    cases h
    exact ⟨0, rfl⟩

instance : Advances (get : Parser Cursor) where
  forward h := by
    cases h
    exact ⟨0, rfl⟩

/-- What a sequence does, its first part does up to some cursor. -/
theorem bind_eq_ok {p : Parser α} {f : α → Parser β} {c c' : Cursor} {b : β}
    (h : (p >>= f) c = .ok (b, c')) : ∃ a d, p c = .ok (a, d) ∧ f a d = .ok (b, c') := by
  have hrun : (p >>= f) c = (p c >>= fun r => f r.1 r.2) := rfl
  rw [hrun] at h
  cases hp : p c with
  | error e =>
    rw [hp] at h
    cases h
  | ok r =>
    rw [hp] at h
    exact ⟨r.1, r.2, rfl, h⟩

instance (p : Parser α) (f : α → Parser β) [Advances p] [∀ a, Advances (f a)] :
    Advances (p >>= f) where
  forward h := by
    obtain ⟨a, d, hp, hf⟩ := bind_eq_ok h
    obtain ⟨m, rfl⟩ := Advances.forward hp
    obtain ⟨n, rfl⟩ := Advances.forward hf
    exact ⟨m + n, Cursor.skip_add _ m n⟩

/-- A sequence moves forward if its first part and all its ends do; for
ends that instances cannot see, such as those of a match. -/
theorem Advances.after {p : Parser α} {f : α → Parser β} [Advances p]
    (h : ∀ a, Advances (f a)) : Advances (p >>= f) := inferInstance

instance (b : Prop) [Decidable b] (p q : Parser α) [Advances p] [Advances q] :
    Advances (if b then p else q) := by
  split <;> infer_instance

instance (code message : String) : Advances (fail code message : Parser α) where
  forward h := by cases h

instance : Advances (exhausted : Parser α) where
  forward h := by cases h

instance : Advances advance where
  forward h := by
    cases h
    exact ⟨1, rfl⟩

instance (n : Nat) : Advances (advanceBy n) where
  forward h := by
    cases h
    exact ⟨n, rfl⟩

-- ========================================================= single steps

instance (k : Nat) : Advances (kindAt k) := by unfold kindAt; infer_instance
instance : Advances kind := by unfold kind; infer_instance
instance : Advances text := by unfold text; infer_instance
instance : Advances start := by unfold start; infer_instance
instance : Advances lastEnd := by unfold lastEnd; infer_instance
instance (from_ : Nat) : Advances (spanFrom from_) := by unfold spanFrom; infer_instance
instance (k : LexemeKind) : Advances (atKind k) := by unfold atKind; infer_instance
instance (word : String) : Advances (atWord word) := by unfold atWord; infer_instance
instance (k : LexemeKind) : Advances (eat k) := by unfold eat; infer_instance

instance (k : LexemeKind) : Advances (missing k : Parser α) := by
  unfold missing
  split <;> infer_instance

instance (k : LexemeKind) : Advances (expect k) := by unfold expect; infer_instance
instance : Advances identifier := by unfold identifier; infer_instance

-- ========================================================== repetition

instance (turn : Parser (Turn α)) [Advances turn] (bound : Nat) :
    Advances (collectWithin turn bound) := by
  induction bound with
  | zero => unfold collectWithin; infer_instance
  | succ bound ih =>
    unfold collectWithin
    refine .after fun t => ?_
    cases t <;> infer_instance

instance (turn : Parser (Turn α)) [Advances turn] : Advances (collect turn) := by
  unfold collect; infer_instance

instance (item : Parser α) [Advances item] : Advances (separated item) := by
  unfold separated; infer_instance

-- ============================================================ skipping

instance : Advances toEnd := by unfold toEnd; infer_instance

instance (opening closing : LexemeKind) : Advances (skipBalanced opening closing) := by
  unfold skipBalanced
  refine .after fun from_ => .after fun _ => .after fun c => ?_
  split <;> infer_instance

instance (stops : List LexemeKind) : Advances (skipUntil stops) := by
  unfold skipUntil
  refine .after fun c => .after fun _ => ?_
  split <;> infer_instance

instance : Advances skipAttributes := by unfold skipAttributes; infer_instance

instance : Advances skipConstraints := by
  unfold skipConstraints
  refine .after fun w => ?_
  split
  · refine .after fun c => ?_
    split <;> infer_instance
  · infer_instance

-- ============================================================== types

instance : Advances typeSuffix := by
  unfold typeSuffix
  refine .after fun k => ?_
  split <;> infer_instance

instance (argument : Parser TypeExpr) [Advances argument] :
    Advances (typeArgumentsOf argument) := by
  unfold typeArgumentsOf; infer_instance

instance (argument : Parser TypeExpr) [Advances argument] : Advances (nameSegment argument) := by
  unfold nameSegment; infer_instance

instance : Advances typeAlias := by unfold typeAlias; infer_instance

instance (bound : Nat) (inHeader : Bool) : Advances (typeExprWithin bound inHeader) := by
  induction bound generalizing inHeader with
  | zero => unfold typeExprWithin; infer_instance
  | succ bound ih =>
    unfold typeExprWithin
    refine .after fun k => ?_
    split <;> infer_instance

instance (inHeader : Bool) : Advances (typeExprIn inHeader) := by unfold typeExprIn; infer_instance
instance : Advances typeExpr := by unfold typeExpr; infer_instance
instance : Advances headerType := by unfold headerType; infer_instance
instance : Advances typeArguments := by unfold typeArguments; infer_instance

-- ============================================================= members

instance : Advances modifierHere := by
  unfold modifierHere
  refine .after fun spelling => .after fun k => ?_
  split <;> infer_instance

instance : Advances modifiers := by
  have hturn : Advances (do
      match ← modifierHere with
      | some set => do
        advance
        return .item set
      | none => return .done : Parser (Turn Modifiers)) := by
    refine .after fun found => ?_
    split <;> infer_instance
  unfold modifiers
  infer_instance

instance : Advances expressionBody := by unfold expressionBody; infer_instance

instance : Advances body := by
  unfold body
  refine .after fun k => ?_
  split <;> infer_instance

instance : Advances accessor := by
  unfold accessor
  refine .after fun _ => .after fun closes => ?_
  split
  · infer_instance
  · refine .after fun ends => ?_
    split
    · infer_instance
    · refine .after fun from_ => .after fun mods => .after fun spelling => .after fun k => ?_
      dsimp only
      split <;> infer_instance

instance : Advances accessors := by unfold accessors; infer_instance
instance : Advances accessorsOrExpression := by unfold accessorsOrExpression; infer_instance

instance : Advances passingHere := by
  unfold passingHere
  refine .after fun k => ?_
  split
  · refine .after fun spelling => ?_
    split <;> infer_instance
  · infer_instance
  · infer_instance

instance (word : String) : Advances (eatModifier word) := by unfold eatModifier; infer_instance

instance (closing : LexemeKind) : Advances (parameter closing) := by
  unfold parameter; dsimp only; infer_instance

instance (opening closing : LexemeKind) : Advances (parameters opening closing) := by
  unfold parameters; infer_instance

instance : Advances typeParameter := by unfold typeParameter; dsimp only; infer_instance
instance : Advances typeParameters := by unfold typeParameters; infer_instance
instance (name : String) : Advances (variableAfter name) := by
  unfold variableAfter
  dsimp only
  infer_instance
instance (first : String) : Advances (declarators first) := by unfold declarators; infer_instance

instance : Advances chaining := by
  unfold chaining
  refine .after fun colon => ?_
  split
  · refine .after fun k => ?_
    split <;> infer_instance
  · infer_instance

section Members

variable (from_ : Nat) (mods : Modifiers)

instance : Advances (constructor from_ mods) := by unfold constructor; infer_instance
instance : Advances (destructor from_) := by unfold destructor; infer_instance

instance (kind : OperatorKind) (returnType : TypeExpr) :
    Advances (operatorAfter from_ mods kind returnType) := by
  unfold operatorAfter; infer_instance

instance (kind : OperatorKind) : Advances (conversion from_ mods kind) := by
  unfold conversion; infer_instance

instance (type : TypeExpr) : Advances (symbolOperator from_ mods type) := by
  unfold symbolOperator; infer_instance

instance (type : TypeExpr) (explicitInterface : Option TypeExpr) :
    Advances (indexerAfter from_ mods type explicitInterface) := by
  unfold indexerAfter; infer_instance

instance : Advances eventSegment := by unfold eventSegment; infer_instance
instance : Advances (event from_ mods) := by unfold event; infer_instance

instance (type : TypeExpr) (explicitInterface : Option TypeExpr) (segment : NameSegment) :
    Advances (methodAfter from_ mods type explicitInterface segment) := by
  unfold methodAfter
  split <;> infer_instance

instance (type : TypeExpr) (explicitInterface : Option TypeExpr) (name : String) :
    Advances (propertyAfter from_ mods type explicitInterface name) := by
  unfold propertyAfter; dsimp only; infer_instance

instance (type : TypeExpr) (name : String) : Advances (fieldAfter from_ mods type name) := by
  unfold fieldAfter; infer_instance

instance : Advances memberSegments := by unfold memberSegments; infer_instance

instance (type : TypeExpr) (segments : List NameSegment) :
    Advances (namedMember from_ mods type segments) := by
  unfold namedMember
  refine .after fun k => ?_
  split <;> infer_instance

instance (type : TypeExpr) : Advances (typedMember from_ mods type) := by
  unfold typedMember; infer_instance

instance : Advances (plainMember from_ mods) := by
  unfold plainMember
  refine .after fun k => ?_
  split <;> infer_instance

instance : Advances enumerators := by unfold enumerators; dsimp only; infer_instance
instance : Advances (delegateAfter from_ mods) := by unfold delegateAfter; infer_instance
instance : Advances (enumAfter from_ mods) := by unfold enumAfter; dsimp only; infer_instance

variable (member : Parser Member) [Advances member] (kind : TypeKind)

instance : Advances (classAfter member from_ mods kind) := by
  unfold classAfter
  dsimp only
  refine .after fun name => .after fun typeParams => .after fun derived => ?_
  split <;> infer_instance

instance : Advances (typeDeclOf member from_ mods kind) := by
  unfold typeDeclOf
  refine .after fun _ => ?_
  split <;> infer_instance

end Members

instance (bound : Nat) : Advances (memberWithin bound) := by
  induction bound with
  | zero => unfold memberWithin; infer_instance
  | succ bound ih =>
    unfold memberWithin
    refine .after fun _ => .after fun from_ => .after fun mods => .after fun k => ?_
    split <;> infer_instance

instance (from_ : Nat) (mods : Modifiers) (kind : TypeKind) :
    Advances (typeDecl from_ mods kind) := by
  unfold typeDecl; infer_instance

-- =============================================================== files

instance : Advances usingDirective := by
  unfold usingDirective
  dsimp only
  refine .after fun g => .after fun k => ?_
  split
  · refine .after fun _ => .after fun found => ?_
    split <;> infer_instance
  · refine .after fun found => ?_
    split <;> infer_instance
instance : Advances usings := by unfold usings; infer_instance
instance : Advances qualifiedName := by unfold qualifiedName; infer_instance

instance : Advances namespaceMember.declaration := by
  unfold namespaceMember.declaration
  refine .after fun from_ => .after fun mods => .after fun k => ?_
  split <;> infer_instance

instance (members : Bool → Parser (List NamespaceMember)) [∀ inBlock, Advances (members inBlock)]
    (inBlock : Bool) : Advances (namespaceMember members inBlock) := by
  unfold namespaceMember
  refine .after fun _ => .after fun k => ?_
  split <;> infer_instance

instance (bound : Nat) (inBlock : Bool) : Advances (namespaceMembersWithin bound inBlock) := by
  induction bound generalizing inBlock with
  | zero => unfold namespaceMembersWithin; infer_instance
  | succ bound ih => unfold namespaceMembersWithin; infer_instance

instance : Advances namespaceMembers := by unfold namespaceMembers; infer_instance
instance : Advances aliases := by unfold aliases; infer_instance
instance : Advances compilationUnit := by unfold compilationUnit; infer_instance

end Parser

end ClrListing.Syntax
