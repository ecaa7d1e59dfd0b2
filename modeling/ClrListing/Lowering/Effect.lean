/-
What the members of a type, other than types, bring about in the
compiled type: complaints, marks and methods, in order.

The compiled form of a member depends on nothing but the member, with the
attributes that it gets from its modifiers, and the type it stands in; whether
a method's signature is taken already is for the whole type to say.
-/
import ClrListing.Assembly.Basic
import ClrListing.Diagnostic
import ClrListing.Lowering.Scope
import ClrListing.Syntax.Declaration

namespace ClrListing.Lowering

open Assembly Metadata Source Syntax

-- ============================================================= access

/-- The access that modifiers ask for, if they ask for one. -/
def declaredAccess (ms : Modifiers) : Option Access :=
  if ms.has .isPublic then some .publicAccess
  else if ms.has .isProtected && ms.has .isInternal then some .familyOrAssembly
  else if ms.has .isProtected && ms.has .isPrivate then some .familyAndAssembly
  else if ms.has .isProtected then some .family
  else if ms.has .isInternal then some .assembly
  else if ms.has .isPrivate then some .privateAccess
  else none

/-- The modifiers that ask for an access. -/
def accessModifiers : Modifiers := [.isPublic, .isPrivate, .isProtected, .isInternal]

/-- The modifiers of an accessor: those of its owner, except that an
access of its own takes the place of the owner's. -/
def accessorModifiers (owner own : Modifiers) : Modifiers :=
  if own.hasAny accessModifiers then
    (owner.filter fun m => !accessModifiers.contains m)
      ++ own.filter fun m => accessModifiers.contains m
  else owner

-- ============================================================== types

/-- The number that stands for the visibility of a type in its
attributes. -/
def visibility (nested : Bool) (ms : Modifiers) : Nat :=
  if nested then
    match declaredAccess ms with
    | some .publicAccess => 2
    | some .family => 4
    | some .assembly => 5
    | some .familyAndAssembly => 6
    | some .familyOrAssembly => 7
    | _ => 3
  else if ms.has .isPublic then 1 else 0

/-- Whether a member is a constructor of the type. -/
def isTypeConstructor : Member → Bool
  | .constructor c => c.modifiers.has .isStatic
  | _ => false

/-- The flags of a type by its kind. A class or struct whose members hold
no constructor of the type may set its static fields early. -/
def kindFlags (kind : TypeKind) (ms : Modifiers) (members : List Member) : List TypeFlag :=
  let early := if members.any isTypeConstructor then [] else [TypeFlag.beforeFieldInit]
  match kind with
  | .classType =>
    (if ms.has .isStatic || ms.has .isAbstract then [.isAbstract] else [])
      ++ (if ms.has .isStatic || ms.has .isSealed then [.isSealed] else []) ++ early
  | .structType => [.isSealed, .sequentialLayout] ++ early
  | .interfaceType => [.isInterface, .isAbstract]
  | .enumType | .delegateType => [.isSealed]

/-- The attributes of a type. -/
def typeAttributes (kind : TypeKind) (nested : Bool) (ms : Modifiers) (members : List Member) :
    FlagSet TypeFlag :=
  (FlagSet.mk (visibility nested ms)).insertAll (kindFlags kind ms members)

-- ============================================================ methods

/-- The flags that tell how a method is found at run time, from its
modifiers. -/
def dispatchFlags (ms : Modifiers) (inInterface : Bool) (access : Access) (hasBody : Bool) :
    List MethodFlag :=
  if inInterface then
    if !ms.has .isStatic && access ≠ .privateAccess && !ms.has .isSealed then
      [.isVirtual, .newSlot] ++ if hasBody then [] else [.isAbstract]
    else if ms.has .isStatic && ms.has .isAbstract then [.isAbstract, .isVirtual]
    else []
  else if ms.has .isAbstract then [.isAbstract, .isVirtual, .newSlot]
  else if ms.has .isVirtual then [.isVirtual, .newSlot]
  else if ms.has .isOverride then
    .isVirtual :: if ms.has .isSealed then [.isFinal] else []
  else []

/-- Access and flags of a method that implements no interface
explicitly. -/
def methodAttributes (ms : Modifiers) (inInterface hasBody : Bool) :
    Access × FlagSet MethodFlag :=
  let access :=
    (declaredAccess ms).getD (if inInterface then .publicAccess else .privateAccess)
  (access, .ofList (.hideBySig :: (if ms.has .isStatic then [.isStatic] else [])
    ++ dispatchFlags ms inInterface access hasBody
    ++ if ms.has .isExternal then [.platformInvoke] else []))

/-- Access and flags of a method that implements an interface
explicitly. -/
def explicitAttributes (isStatic : Bool) : Access × FlagSet MethodFlag :=
  (.privateAccess,
    .ofList (.hideBySig :: if isStatic then [.isStatic] else [.isVirtual, .newSlot, .isFinal]))

-- ============================================================ effects

/-- What the constructors that a compiler adds depend on. -/
inductive Mark where
  /-- The type has a constructor of instances. -/
  | instanceConstructor
  /-- The type has a constructor of the type. -/
  | typeConstructor
  /-- A static field or property has an initial value. -/
  | staticInitializer
  deriving DecidableEq, Repr, Inhabited

/-- What a member brings about. -/
inductive Effect where
  /-- A complaint about the source at a span. -/
  | complain (d : Diagnostic) (span : Span)
  | mark (m : Mark)
  /-- A method, declared at a span, whose body is compiled if it has
  one. -/
  | declare (m : MethodDef) (hasBody : Bool) (span : Span)
  deriving Inhabited

/-- The type in which a member stands. -/
structure Surroundings where
  kind : TypeKind
  /-- The name, without arity. -/
  simpleName : String
  /-- The name for the reader. -/
  display : String
  /-- The scope inside the type. -/
  scope : Scope
  deriving Inhabited

/-- Whether the type is an interface. -/
def Surroundings.isInterface (s : Surroundings) : Bool := s.kind = .interfaceType

-- ========================================================= complaints

/-- A parameter as complaints show it. -/
def displayParameter (p : Parameter) : String :=
  match p.passing with
  | some passing => passing.keyword ++ " " ++ p.type.display
  | none => p.type.display

/-- Parameters as complaints show them. -/
def displayParameters (ps : List Parameter) : String :=
  String.intercalate ", " (ps.map displayParameter)

/-- The complaint that a member has no body. -/
def bodyMissing (member : String) : Diagnostic :=
  .error "CS0501" ("'" ++ member
    ++ "' must declare a body because it is not marked abstract, extern, or partial")

/-- A complaint that a member has no body, unless `allowed`. -/
def requireBody (body : Option Body) (allowed : Bool) (member : String) (span : Span) :
    List Effect :=
  if body.isSome || allowed then [] else [.complain (bodyMissing member) span]

-- ============================================== fields, constructors

/-- The full name of what gives nothing. -/
def voidName : String := "System.Void"

/-- A method with a name that the runtime knows. -/
def runtimeNamed (name : String) (signature : Signature) : MethodDef :=
  let m := MethodDef.ofSignature name signature
  { m with flags := m.flags.insertAll [.specialName, .runtimeSpecialName] }

/-- A field leaves at most the mark of a static initial value. -/
def fieldEffects (f : Field) : List Effect :=
  if f.modifiers.has .isStatic && !f.modifiers.has .isConst
      && f.declarators.any Variable.hasInitializer then
    [.mark .staticInitializer]
  else []

/-- The compiled form of a constructor. -/
def constructorMethod (s : Surroundings) (c : Constructor) : MethodDef :=
  let params := s.scope.parameterTypes c.params
  if c.modifiers.has .isStatic then
    { runtimeNamed ".cctor" ⟨false, 0, voidName, params⟩ with access := .privateAccess }
  else
    { runtimeNamed ".ctor" ⟨true, 0, voidName, params⟩ with
      access := (declaredAccess c.modifiers).getD .privateAccess }

/-- A constructor; one under another name than the type's is a method
without a return type. -/
def constructorEffects (s : Surroundings) (c : Constructor) : List Effect :=
  if c.name ≠ s.simpleName then
    [.complain (.error "CS1520" "Method must have a return type") c.span]
  else
    requireBody c.body (c.modifiers.has .isExternal)
        (s.display ++ "." ++ c.name ++ "(" ++ displayParameters c.params ++ ")") c.span
      ++ [.mark (if c.modifiers.has .isStatic then .typeConstructor else .instanceConstructor),
        .declare (constructorMethod s c) c.body.isSome c.span]

/-- The compiled form of a destructor. -/
def finalizer : MethodDef :=
  let m := MethodDef.ofSignature "Finalize" (.nothing true)
  { m with access := .family, flags := m.flags.insert .isVirtual }

/-- A destructor. -/
def destructorEffects (s : Surroundings) (d : Destructor) : List Effect :=
  requireBody d.body false (s.display ++ ".~" ++ d.name ++ "()") d.span
    ++ [.declare finalizer d.body.isSome d.span]

-- ============================================================ methods

/-- What stands before the name of a member that implements an interface
explicitly. -/
def interfaceStart (scope : Scope) : Option TypeExpr → String
  | some interface => scope.interfaceName interface ++ "."
  | none => ""

/-- The compiled form of a method. -/
def methodOf (s : Surroundings) (m : Method) : MethodDef :=
  let scope := s.scope.inMethod m.typeParams
  let isStatic := m.modifiers.has .isStatic
  let signature : Signature :=
    ⟨!isStatic, m.typeParams.length, scope.typeName m.returnType, scope.parameterTypes m.params⟩
  let (access, flags) :=
    if m.explicitInterface.isSome then explicitAttributes isStatic
    else methodAttributes m.modifiers s.isInterface m.body.isSome
  { MethodDef.ofSignature (interfaceStart scope m.explicitInterface ++ m.name) signature with
    access := access, flags := flags, genericParams := m.typeParams }

/-- A method; of a partial method only the part with a body counts. -/
def methodEffects (s : Surroundings) (m : Method) : List Effect :=
  if m.body.isNone && m.modifiers.has .isPartial then []
  else
    requireBody m.body (s.isInterface || m.modifiers.hasAny [.isAbstract, .isExternal])
        (s.display ++ "." ++ m.name ++ "(" ++ displayParameters m.params ++ ")") m.span
      ++ [.declare (methodOf s m) m.body.isSome m.span]

-- ========================================================== accessors

/-- The property, indexer or event that accessors belong to. -/
structure AccessorOwner where
  modifiers : Modifiers
  /-- The interface and a dot, if one is implemented explicitly. -/
  interface : String
  /-- What accessors are named after. -/
  name : String
  /-- The full name of the type of the value. -/
  valueType : String
  /-- The full names of the types of index parameters. -/
  indexTypes : List String
  /-- The name for the reader. -/
  display : String
  /-- Whether accessors without bodies are filled in. -/
  mayBeAutomatic : Bool
  deriving Inhabited

namespace AccessorOwner

/-- The signature of an accessor: a getter gives the value, any other
takes it after the index. -/
def signature (o : AccessorOwner) (kind : AccessorKind) : Signature :=
  let hasThis := !o.modifiers.has .isStatic
  if kind = .get then ⟨hasThis, 0, o.valueType, o.indexTypes⟩
  else ⟨hasThis, 0, voidName, o.indexTypes ++ [o.valueType]⟩

/-- The compiled form of an accessor with modifiers of its own. -/
def method (o : AccessorOwner) (s : Surroundings) (kind : AccessorKind) (own : Modifiers)
    (hasBody generated : Bool) : MethodDef :=
  let (access, flags) :=
    if o.interface.isEmpty then
      methodAttributes (accessorModifiers o.modifiers own) s.isInterface hasBody
    else explicitAttributes (o.modifiers.has .isStatic)
  { MethodDef.ofSignature (o.interface ++ kind.methodStart ++ o.name) (o.signature kind) with
    access := access, flags := flags.insert .specialName, isGenerated := generated }

/-- Whether accessors of the owner may be without bodies and stay so. -/
def bodiesOptional (o : AccessorOwner) (s : Surroundings) : Bool :=
  s.isInterface || o.modifiers.hasAny [.isAbstract, .isExternal]

/-- Whether accessors are filled in: all of them are without bodies, and
nothing lets them stay so. -/
def isAutomatic (o : AccessorOwner) (s : Surroundings) (accessors : List Accessor) : Bool :=
  o.mayBeAutomatic && !o.bodiesOptional s && accessors.all fun a => a.body.isNone

/-- An accessor as written; an automatic one gets a body. -/
def accessorEffects (o : AccessorOwner) (s : Surroundings) (automatic : Bool) (a : Accessor) :
    List Effect :=
  let hasBody := a.body.isSome || automatic
  requireBody a.body (o.bodiesOptional s || automatic) (o.display ++ "." ++ a.kind.keyword)
      a.span
    ++ [.declare (o.method s a.kind a.modifiers hasBody automatic) hasBody a.span]

/-- The accessors of an owner; an expression body is a getter's. -/
def effects (o : AccessorOwner) (s : Surroundings) (accessors : List Accessor)
    (hasExpressionBody : Bool) (span : Span) : List Effect :=
  if hasExpressionBody then [.declare (o.method s .get [] true false) true span]
  else accessors.flatMap (o.accessorEffects s (o.isAutomatic s accessors))

end AccessorOwner

/-- The owner that a property is. -/
def propertyOwner (s : Surroundings) (p : Property) : AccessorOwner :=
  ⟨p.modifiers, interfaceStart s.scope p.explicitInterface, p.name, s.scope.typeName p.type, [],
    s.display ++ "." ++ p.name, true⟩

/-- A property. -/
def propertyEffects (s : Surroundings) (p : Property) : List Effect :=
  (if p.hasInitializer && p.modifiers.has .isStatic then [.mark .staticInitializer] else [])
    ++ (propertyOwner s p).effects s p.accessors p.expressionBody.isSome p.span

/-- The owner that an indexer is. -/
def indexerOwner (s : Surroundings) (i : Indexer) : AccessorOwner :=
  ⟨i.modifiers, interfaceStart s.scope i.explicitInterface, "Item", s.scope.typeName i.type,
    s.scope.parameterTypes i.params,
    s.display ++ ".this[" ++ displayParameters i.params ++ "]", false⟩

/-- An indexer. -/
def indexerEffects (s : Surroundings) (i : Indexer) : List Effect :=
  (indexerOwner s i).effects s i.accessors i.expressionBody.isSome i.span

/-- The owner that one of the events of a declaration is. -/
def eventOwner (s : Surroundings) (e : Event) (name : String) : AccessorOwner :=
  ⟨e.modifiers, interfaceStart s.scope e.explicitInterface, name, s.scope.typeName e.type, [],
    s.display ++ "." ++ name, false⟩

/-- One event of a declaration; without accessors it gets both, with
bodies unless it is abstract. -/
def oneEventEffects (s : Surroundings) (e : Event) (name : String) : List Effect :=
  let owner := eventOwner s e name
  if e.accessors.isEmpty then
    let generated := !s.isInterface && !e.modifiers.has .isAbstract
    [AccessorKind.add, .remove].map fun kind =>
      .declare (owner.method s kind [] generated generated) generated e.span
  else owner.effects s e.accessors false e.span

/-- An event declaration. -/
def eventEffects (s : Surroundings) (e : Event) : List Effect :=
  e.names.flatMap (oneEventEffects s e)

-- ========================================================== operators

/-- The method name of an operator with so many operands, if that may be
overloaded. -/
def operatorName? (spelling : String) (operands : Nat) : Option String :=
  let unary := [("+", "op_UnaryPlus"), ("-", "op_UnaryNegation"), ("!", "op_LogicalNot"),
    ("~", "op_OnesComplement"), ("++", "op_Increment"), ("--", "op_Decrement"),
    ("true", "op_True"), ("false", "op_False")]
  let binary := [("+", "op_Addition"), ("-", "op_Subtraction"), ("*", "op_Multiply"),
    ("/", "op_Division"), ("%", "op_Modulus"), ("&", "op_BitwiseAnd"), ("|", "op_BitwiseOr"),
    ("^", "op_ExclusiveOr"), ("<<", "op_LeftShift"), (">>", "op_RightShift"),
    (">>>", "op_UnsignedRightShift"), ("==", "op_Equality"), ("!=", "op_Inequality"),
    ("<", "op_LessThan"), (">", "op_GreaterThan"), ("<=", "op_LessThanOrEqual"),
    (">=", "op_GreaterThanOrEqual")]
  let table := if operands = 1 then unary else if operands = 2 then binary else []
  (table.find? fun entry => entry.1 = spelling).map Prod.snd

/-- The method name that stands for implicit conversion. -/
def implicitName : String := "op_Implicit"

/-- The method name that stands for explicit conversion. -/
def explicitName : String := "op_Explicit"

/-- The method name of an operator, or why it cannot be overloaded. -/
def operatorMethodName (o : Operator) : Except Diagnostic String :=
  match o.kind with
  | .implicitConversion => .ok implicitName
  | .explicitConversion => .ok explicitName
  | .symbol spelling =>
    match operatorName? spelling o.params.length with
    | some name => .ok name
    | none =>
      if o.params.length = 2 then
        .error (.error "CS1020" "Overloadable binary operator expected")
      else .error (.error "CS1019" "Overloadable unary operator expected")

/-- The compiled form of an operator. -/
def operatorMethod (s : Surroundings) (o : Operator) (name : String) : MethodDef :=
  let m := MethodDef.ofSignature name
    ⟨false, 0, s.scope.typeName o.returnType, s.scope.parameterTypes o.params⟩
  { m with
    access := (declaredAccess o.modifiers).getD .privateAccess
    flags := m.flags.insert .specialName }

/-- An operator. -/
def operatorEffects (s : Surroundings) (o : Operator) : List Effect :=
  match operatorMethodName o with
  | .error d => [.complain d o.span]
  | .ok name =>
    requireBody o.body (s.isInterface || o.modifiers.has .isExternal)
        (s.display ++ "." ++ name ++ "(" ++ displayParameters o.params ++ ")") o.span
      ++ [.declare (operatorMethod s o name) o.body.isSome o.span]

-- ========================================================== delegates

/-- A method that the runtime implements. -/
def runtimeMethod (name returnType : String) (params : List String) : MethodDef :=
  { MethodDef.ofSignature name ⟨true, 0, returnType, params⟩ with codeKind := .runtime }

/-- The full names of the types of the parameters passed by reference. -/
def byRefTypes (scope : Scope) (ps : List Parameter) : List String :=
  scope.parameterTypes (ps.filter Parameter.isByRef)

/-- The four methods of a delegate. -/
def delegateMethods (s : Surroundings) (d : DelegateSignature) : List MethodDef :=
  let returnType := s.scope.typeName d.returnType
  let params := s.scope.parameterTypes d.params
  let constructor := runtimeMethod ".ctor" voidName ["System.Object", "System.IntPtr"]
  let calls := [runtimeMethod "Invoke" returnType params,
    runtimeMethod "BeginInvoke" "System.IAsyncResult"
      (params ++ ["System.AsyncCallback", "System.Object"]),
    runtimeMethod "EndInvoke" returnType
      (byRefTypes s.scope d.params ++ ["System.IAsyncResult"])]
  { constructor with flags := constructor.flags.insertAll [.specialName, .runtimeSpecialName] }
    :: calls.map fun m => { m with flags := m.flags.insertAll [.isVirtual, .newSlot] }

/-- A delegate. -/
def delegateEffects (s : Surroundings) (delegate : Option DelegateSignature) (span : Span) :
    List Effect :=
  match delegate with
  | none => []
  | some d =>
    .mark .instanceConstructor
      :: (delegateMethods s d).map fun m => .declare m false span

-- ======================================================== all members

/-- What a member that is no type brings about. -/
def memberEffects (s : Surroundings) : Member → List Effect
  | .type _ => []
  | .field f => fieldEffects f
  | .constructor c => constructorEffects s c
  | .destructor d => destructorEffects s d
  | .method m => methodEffects s m
  | .property p => propertyEffects s p
  | .indexer i => indexerEffects s i
  | .event e => eventEffects s e
  | .operator o => operatorEffects s o

end ClrListing.Lowering
