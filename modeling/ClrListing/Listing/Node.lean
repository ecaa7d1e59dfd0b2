/-
What a listing shows of compiled members.

A forest of nodes has the shape of the forest of members that it is made
from. Making it gives native code to each method that will be listed; a
method that cannot get any is a node all the same. Types and methods with
type parameters have no native code of their own, and nothing inside such
a type has any.
-/
import ClrListing.Binding.Resolver
import ClrListing.Native.Runtime

namespace ClrListing.Listing

open Assembly Binding Metadata Native

-- ================================================================ nodes

/-- What is listed of a compiled member. -/
inductive Node where
  /-- A type, whose members are listed. -/
  | type (token : Token) (children : List Node)
  /-- A method, whose code is listed. -/
  | method (token : Token)
  /-- A type with type parameters; its members are not listed. -/
  | openType (token : Token) (children : List Node)
  /-- A method with type parameters of its own. -/
  | openMethod (token : Token)
  deriving Inhabited

namespace Node

/-- The member that a node is for. -/
def token : Node → Token
  | type token _ | method token | openType token _ | openMethod token => token

/-- The nodes of the members inside a type. -/
def children : Node → List Node
  | type _ children | openType _ children => children
  | method _ | openMethod _ => []

/-- Whether the member has type parameters. -/
def isOpen : Node → Bool
  | type .. | method _ => false
  | openType .. | openMethod _ => true

mutual

/-- How many nodes there are, this one and those inside it. -/
def count : Node → Nat
  | type _ children | openType _ children => 1 + countAll children
  | method _ | openMethod _ => 1

/-- How many nodes a forest has. -/
def countAll : List Node → Nat
  | [] => 0
  | n :: rest => n.count + countAll rest

end

-- ========================================================= from members

/-- Gives a method native code; a failure leaves a warning. -/
def prepare (host : Host σ) (a : Assembly) (token : Token) : Run σ Unit := do
  match ← Run.attempt (host.prepare a token) with
  | .ok () => return ()
  | .error e =>
    Run.warn ("Failed to prepare " ++ a.displayName token ++ ": " ++ e.message)

/-- The node of a method, which gets native code if `isListed` holds. -/
def ofMethod (host : Host σ) (a : Assembly) (isListed : Bool) (token : Token) : Run σ Node :=
  match a.method? token with
  | none => throw (.resolution (.foreignMethod token))
  | some m =>
    if m.isOpen then return .openMethod token
    else do
      if isListed && !m.isAbstract then prepare host a token
      return .method token

mutual

/-- The node of a member, `isListed` telling whether no type around it has
type parameters. -/
def ofMember (host : Host σ) (a : Assembly) (isListed : Bool) : ResolvedMember → Run σ Node
  | ⟨token, children⟩ =>
    if token.isIn .typeDef then
      match a.type? token with
      | none => throw (.resolution (.foreignType token))
      | some t => do
        let nodes ← ofMembers host a (isListed && !t.isOpen) children
        return if t.isOpen then .openType token nodes else .type token nodes
    else ofMethod host a isListed token

/-- The nodes of members. -/
def ofMembers (host : Host σ) (a : Assembly) (isListed : Bool) :
    List ResolvedMember → Run σ (List Node)
  | [] => return []
  | m :: rest => do
    let node ← ofMember host a isListed m
    let nodes ← ofMembers host a isListed rest
    return node :: nodes

end

/-- The forest of nodes of a forest of members. -/
def forest (host : Host σ) (a : Assembly) (members : List ResolvedMember) :
    Run σ (List Node) :=
  ofMembers host a true members

end Node

end ClrListing.Listing
