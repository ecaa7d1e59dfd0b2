/-
The pieces that the listing of a node is put together from.

Listing goes from a node down to the members inside it and puts an empty
line between two of them. Which pieces there are, and in which order, is
decided by the node alone (`block_eq`): the runtime and the decoder decide
only what each piece says. So two listings of one node, taken from two
runtimes, are compared piece by piece.

The code of a method is a piece exactly if the method is listed
(`lists_iff`), that is, if neither the method nor a type around it has type
parameters.
-/
import ClrListing.Listing.Method

namespace ClrListing.Listing

open Metadata

-- ============================================================== blocks

namespace Block

theorem append_eq (a b : Block) : a ++ b = ⟨a.lines ++ b.lines, a.log ++ b.log⟩ := rfl

@[simp]
theorem append_empty (b : Block) : b ++ empty = b := by
  simp only [append_eq, empty, List.append_nil]

theorem append_assoc (a b c : Block) : a ++ b ++ c = a ++ (b ++ c) := by
  simp only [append_eq, List.append_assoc]

/-- Blocks one after another. -/
def join (blocks : List Block) : Block := blocks.foldr (· ++ ·) empty

@[simp]
theorem join_cons (b : Block) (rest : List Block) : join (b :: rest) = b ++ join rest := rfl

theorem join_singleton (b : Block) : join [b] = b := append_empty b

theorem join_append (bs cs : List Block) : join (bs ++ cs) = join bs ++ join cs := by
  induction bs with
  | nil => rfl
  | cons b rest ih => rw [List.cons_append, join_cons, join_cons, ih, append_assoc]

end Block

-- ============================================================== pieces

/-- A piece of the listing of a node. -/
inductive Piece where
  /-- The code of a method. -/
  | code (token : Token)
  /-- The line that stands for a type with type parameters. -/
  | openType (token : Token)
  /-- The line that stands for a method with type parameters. -/
  | openMethod (token : Token)
  /-- The empty line between two members of a type. -/
  | gap
  deriving DecidableEq, Repr, Inhabited

namespace Node

mutual

/-- The pieces of the listing of a node, in order. -/
def pieces : Node → List Piece
  | type _ children => piecesInside children
  | method token => [.code token]
  | openType token _ => [.openType token]
  | openMethod token => [.openMethod token]

/-- The pieces of the listing of the members of a type. -/
def piecesInside : List Node → List Piece
  | [] => []
  | [node] => node.pieces
  | node :: rest => node.pieces ++ .gap :: piecesInside rest

end

end Node

/-- What a piece says. -/
def Source.pieceBlock (s : Source) : Piece → Block
  | .code token => s.methodBlock token
  | .openType token => .line (s.openTypeLine token)
  | .openMethod token => .line (s.openMethodLine token)
  | .gap => .line ""

mutual

/-- The listing of a node is that of its pieces, one after another. -/
theorem block_eq (s : Source) :
    ∀ node : Node, s.block node = Block.join (node.pieces.map s.pieceBlock)
  | .type _ children => by
    rw [Source.block, Node.pieces]
    exact blocks_eq s children
  | .method _ | .openType _ _ | .openMethod _ => by
    rw [Source.block, Node.pieces]
    exact (Block.join_singleton _).symm

theorem blocks_eq (s : Source) :
    ∀ nodes : List Node, s.blocks nodes = Block.join ((Node.piecesInside nodes).map s.pieceBlock)
  | [] => by
    rw [Source.blocks, Node.piecesInside]
    rfl
  | [node] => by
    rw [Source.blocks, Node.piecesInside]
    exact block_eq s node
  | node :: next :: rest => by
    have hfirst := block_eq s node
    have hrest := blocks_eq s (next :: rest)
    rw [Source.blocks, Node.piecesInside, hfirst, hrest, List.map_append, List.map_cons,
      Block.join_append, Block.join_cons, ← Block.append_assoc]
    · rfl
    · nofun
    · nofun

end

-- ============================================================== listed

namespace Node

/-- A node lists a method that is the node itself, or that is listed with a
member of the node's type. Nothing is listed of what has type parameters. -/
inductive Lists : Node → Token → Prop
  | method (token : Token) : Lists (.method token) token
  | inside {type token : Token} {children : List Node} {node : Node} :
      node ∈ children → Lists node token → Lists (.type type children) token

theorem mem_piecesInside_cons {node : Node} {rest : List Node} {token : Token} :
    .code token ∈ piecesInside (node :: rest)
      ↔ .code token ∈ node.pieces ∨ .code token ∈ piecesInside rest := by
  cases rest with
  | nil => simp [piecesInside]
  | cons next rest => simp [piecesInside]

mutual

/-- A method is listed exactly if its code is a piece. -/
theorem lists_iff : ∀ {node : Node} {token : Token}, node.Lists token ↔ .code token ∈ node.pieces
  | .type _ children, token => by
    rw [pieces, mem_piecesInside]
    constructor
    · rintro (_ | ⟨hmem, hlists⟩)
      exact ⟨_, hmem, hlists⟩
    · rintro ⟨node, hmem, hlists⟩
      exact .inside hmem hlists
  | .method m, token => by
    rw [pieces, List.mem_singleton, Piece.code.injEq]
    constructor
    · rintro ⟨⟩
      rfl
    · rintro rfl
      exact .method _
  | .openType .., token => by
    rw [pieces, List.mem_singleton]
    exact ⟨nofun, nofun⟩
  | .openMethod .., token => by
    rw [pieces, List.mem_singleton]
    exact ⟨nofun, nofun⟩

theorem mem_piecesInside : ∀ {nodes : List Node} {token : Token},
    .code token ∈ piecesInside nodes ↔ ∃ node ∈ nodes, node.Lists token
  | [], token => by simp [piecesInside]
  | node :: rest, token => by
    have hfirst : node.Lists token ↔ .code token ∈ node.pieces := lists_iff
    have hrest : .code token ∈ piecesInside rest ↔ ∃ node ∈ rest, node.Lists token :=
      mem_piecesInside
    rw [mem_piecesInside_cons, hrest, ← hfirst]
    simp only [List.mem_cons, exists_eq_or_imp]

end

end Node

end ClrListing.Listing
