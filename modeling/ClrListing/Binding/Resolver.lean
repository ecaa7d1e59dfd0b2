/-
The compiled members of declarations.

Types are found by name. Any other declaration takes the next method of
its type with the same canonical name; no signatures are compared. The
methods that are left keep the order of their rows, so that members which
share a name are taken in the order in which they were declared. What is
taken stays taken, also by declarations of a forest that could not be
resolved to its end.
-/
import ClrListing.Assembly.Basic
import ClrListing.Declaration.Forest
import ClrListing.Log

namespace ClrListing.Binding

open Assembly Metadata

-- =============================================================== groups

/-- The methods that are left, each with the name it is grouped under, in
the order of their rows. -/
structure MethodGroups where
  left : List (String × Token)
  deriving DecidableEq, Repr, Inhabited

namespace MethodGroups

/-- The methods that a type declares, without those the compiler made
up. -/
def ofType (a : Assembly) (type : Token) : MethodGroups :=
  ⟨((a.declaredMethods type).filter fun m => !m.isGenerated).map fun m =>
    (m.canonicalName, m.token)⟩

/-- The group of a name. -/
def named (g : MethodGroups) (name : String) : List Token :=
  (g.left.filter fun entry => entry.1 = name).map Prod.snd

/-- How many methods of a name are left. -/
def remaining (g : MethodGroups) (name : String) : Nat := (g.named name).length

/-- The groups after the next method of a name was taken. -/
def taken (g : MethodGroups) (name : String) : MethodGroups :=
  ⟨g.left.eraseP fun entry => entry.1 = name⟩

/-- Takes the next method of a name. -/
def take? (g : MethodGroups) (name : String) : Option Token × MethodGroups :=
  ((g.named name).head?, g.taken name)

end MethodGroups

-- ============================================================== members

/-- A compiled member with the compiled members of the declarations inside
it. -/
structure ResolvedMember where
  /-- The row of a type or a method. -/
  token : Token
  children : List ResolvedMember

namespace ResolvedMember

instance : Inhabited ResolvedMember := ⟨⟨default, []⟩⟩

mutual

/-- How many members there are, this one and those inside it. -/
def count : ResolvedMember → Nat
  | ⟨_, children⟩ => 1 + countAll children

/-- How many members a forest has. -/
def countAll : List ResolvedMember → Nat
  | [] => 0
  | m :: rest => m.count + countAll rest

end

end ResolvedMember

-- ============================================================= resolver

/-- The methods left of each type that was looked at. -/
structure Resolver where
  groups : List (Token × MethodGroups)
  deriving DecidableEq, Repr, Inhabited

namespace Resolver

/-- Nothing looked at yet. -/
def start : Resolver := ⟨[]⟩

/-- The methods left of a type; all of its methods if it was not looked
at. -/
def groupsOf (r : Resolver) (a : Assembly) (type : Token) : MethodGroups :=
  (r.groups.lookup type).getD (.ofType a type)

/-- Puts the methods left of a type on record. -/
def withGroups (r : Resolver) (type : Token) (g : MethodGroups) : Resolver :=
  ⟨(type, g) :: r.groups.filter fun entry => entry.1 ≠ type⟩

/-- A computation that takes methods. -/
abbrev Resolving := Run Resolver

/-- Stops because declarations and compiled members disagree. -/
def disagree (m : Mismatch) : Resolving α := throw (.resolution m)

/-- A warning if a declaration has not as many parameters as the method
that it took. -/
def paramWarning (a : Assembly) (d : Declaration) (method : Token) : Log :=
  match a.method? method, d.paramCount? with
  | some m, some expected =>
    if m.signature.params.length = expected then []
    else [⟨.warn, "'" ++ d.display ++ "' declares " ++ expected.repr
      ++ " parameters but matched " ++ a.signatureText method ++ " with "
      ++ m.signature.params.length.repr⟩]
  | _, _ => []

/-- The method of a type that a declaration takes. -/
def resolveMethod (a : Assembly) (type : Token) (d : Declaration) : Resolving Token := do
  let (token, groups) := ((← Run.state).groupsOf a type).take? d.canonicalName
  Run.setState ((← Run.state).withGroups type groups)
  match token with
  | none => disagree (.memberMissing d.display (a.fullName type))
  | some token =>
    Run.log (paramWarning a d token)
    Run.debug ("Resolved " ++ d.display ++ " to " ++ token.display ++ " ("
      ++ (groups.remaining d.canonicalName).repr ++ " '" ++ d.canonicalName ++ "' left)")
    return token

/-- The type nested in another that a declaration names. -/
def findNested (a : Assembly) (type : Token) (d : Declaration) : Resolving Token :=
  match a.nestedType? type d.canonicalName with
  | some nested => return nested.token
  | none => disagree (.nestedTypeMissing d.canonicalName (a.fullName type))

/-- The type that a declaration at the top names. -/
def findTop (a : Assembly) (d : Declaration) : Resolving Token :=
  match d.kind with
  | .type space .. =>
    match a.findType? space d.canonicalName with
    | some found => return found.token
    | none => disagree (.typeMissing d.display a.name)
  | _ => disagree (.notAType d.display)

mutual

/-- The compiled members of a type's declaration, the type being found. -/
def resolveType (a : Assembly) (type : Token) : Declaration → Resolving ResolvedMember
  | ⟨_, _, children⟩ => do
    Run.debug ("Resolving members of " ++ a.fullName type)
    let members ← resolveChildren a type children
    return ⟨type, members⟩

/-- The compiled members of the declarations inside a type. -/
def resolveChildren (a : Assembly) (type : Token) :
    List Declaration → Resolving (List ResolvedMember)
  | [] => return []
  | d :: rest => do
    let member ←
      if d.isType then do
        let nested ← findNested a type d
        resolveType a nested d
      else do
        let token ← resolveMethod a type d
        pure ⟨token, []⟩
    let members ← resolveChildren a type rest
    return member :: members

end

/-- The compiled members of declarations at the top. -/
def resolveAll (a : Assembly) : List Declaration → Resolving (List ResolvedMember)
  | [] => return []
  | d :: rest => do
    let type ← findTop a d
    let member ← resolveType a type d
    let members ← resolveAll a rest
    return member :: members

/-- The compiled members of a forest, in the shape of the forest. -/
def resolve (a : Assembly) (forest : List Declaration) : Resolving (List ResolvedMember) := do
  let members ← resolveAll a forest
  Run.info ("Resolved " ++ (ResolvedMember.countAll members).repr ++ " members")
  return members

end Resolver

end ClrListing.Binding
