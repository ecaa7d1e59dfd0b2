/-
What a parsed file owes to the spaces and comments in it.

Two texts with the same lexemes are read alike (`Parser.Alongside`), and
what is read differs in places alone, with one exception: the name of a
using directive is cut out of the text, with all that stands between its
first lexeme and its last. Such a name is the same in both texts if the
same stands between its lexemes.
-/
import ClrListing.Proofs.Syntax.Respaced
import ClrListing.Syntax.Tree

namespace ClrListing.Syntax

open Source

-- ============================================================== turns

/-- Whether two turns of a repetition give related items. -/
def Parser.Turn.Alike (R : α → α → Prop) : Turn α → Turn α → Prop
  | .item a, .item b => R a b
  | .last a, .last b => R a b
  | .done, .done => True
  | _, _ => False

namespace Parser

variable {x : Respaced}

theorem Alongside.collect {R : α → α → Prop} {turn turn' : Parser (Turn α)}
    (h : Alongside x (Turn.Alike R) turn turn') :
    Alongside x (List.Forall₂ R) (collect turn) (collect turn') := by
  have hwithin : ∀ bound, Alongside x (List.Forall₂ R) (collectWithin turn bound)
      (collectWithin turn' bound) := by
    intro bound
    induction bound with
    | zero => exact .exhausted
    | succ bound ih =>
      unfold collectWithin
      refine h.bind fun t t' ht => ?_
      cases t <;> cases t' <;> try exact ht.elim
      · exact ih.bind fun items items' hitems => .pure (.cons ht hitems)
      · exact .pure (.cons ht .nil)
      · exact .pure .nil
  unfold Parser.collect
  refine .get fun c c' hbeside => ?_
  rw [hbeside.rest.length_eq]
  exact hwithin _

section Members

variable (from_ from' : Nat) (mods : Modifiers) (type : TypeExpr)

variable {member : Parser Member} (kind : TypeKind)

end Members

end Parser

end ClrListing.Syntax
