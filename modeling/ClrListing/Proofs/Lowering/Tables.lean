/-
The tables that a script spells out.

`typesIn` and `methodsIn` give the rows that a module has after the steps
of a script, computed from the script as a whole: a type's row from its
path, its first declaration and the steps at its path, a method's from its
place among the methods. The lemmas below say what one more step changes:
entering a type again changes nothing, entering a new one adds its row and
links it into the row around it, and a method is added to both tables.
These are the three things that the builder does.
-/
import ClrListing.Proofs.Lowering.Script

namespace ClrListing.Lowering

open Assembly Metadata Syntax

-- ======================================================== declarations

/-- The first declaration of the type at a path. -/
def firstDecl? (ds : List (TypePath × TypeDecl)) (path : TypePath) : Option TypeDecl :=
  (ds.find? fun d => d.1 = path).map Prod.snd

/-- The type parameters that the type at a path declares itself; those of
its first declaration count. -/
def ownParams (ds : List (TypePath × TypeDecl)) (path : TypePath) : List String :=
  ((firstDecl? ds path).map TypeDecl.typeParams).getD []

/-- The type parameters that are declared along the way to a type,
outermost first. -/
def paramsAlong (ds : List (TypePath × TypeDecl)) : TypePath → List String
  | .top space name => ownParams ds (.top space name)
  | .inner outer name => paramsAlong ds outer ++ ownParams ds (.inner outer name)

/-- The attributes of the type at a path, as its first declaration asks
for them. -/
def attributesOf (ds : List (TypePath × TypeDecl)) (path : TypePath) : FlagSet TypeFlag :=
  ((firstDecl? ds path).map fun decl =>
    typeAttributes decl.kind path.outer.isSome decl.modifiers decl.members).getD .empty

section FirstDeclarations

variable {ds more : List (TypePath × TypeDecl)} {path : TypePath} {decl : TypeDecl}

theorem firstDecl?_append (h : path ∈ ds.map Prod.fst) :
    firstDecl? (ds ++ more) path = firstDecl? ds path := by
  obtain ⟨d, hd, hpath⟩ := List.mem_map.mp h
  unfold firstDecl?
  rw [List.find?_append]
  have hsome : (ds.find? fun d => d.1 = path).isSome := by
    rw [List.find?_isSome]
    exact ⟨d, hd, by simpa using hpath⟩
  rw [Option.or_of_isSome hsome]

theorem firstDecl?_concat (h : path ∉ ds.map Prod.fst) :
    firstDecl? (ds ++ [(path, decl)]) path = some decl := by
  unfold firstDecl?
  have hnone : (ds.find? fun d => d.1 = path) = none := by
    rw [List.find?_eq_none]
    intro d hd hpath
    exact h (List.mem_map.mpr ⟨d, hd, by simpa using hpath⟩)
  rw [List.find?_append, hnone, Option.none_or, List.find?_cons_of_pos (by simp)]
  rfl

theorem ownParams_append (h : path ∈ ds.map Prod.fst) :
    ownParams (ds ++ more) path = ownParams ds path := by
  unfold ownParams
  rw [firstDecl?_append h]

theorem attributesOf_append (h : path ∈ ds.map Prod.fst) :
    attributesOf (ds ++ more) path = attributesOf ds path := by
  unfold attributesOf
  rw [firstDecl?_append h]

/-- The parameters along a way are settled when the types on it are
declared. -/
theorem paramsAlong_append (hrooted : Rooted (ds.map Prod.fst).eraseDups) :
    ∀ path ∈ ds.map Prod.fst, paramsAlong (ds ++ more) path = paramsAlong ds path := by
  intro path
  induction path with
  | top space name =>
    intro h
    rw [paramsAlong, paramsAlong, ownParams_append h]
  | inner outer name ih =>
    intro h
    have houter : outer ∈ ds.map Prod.fst :=
      List.mem_eraseDups.mp (hrooted _ (List.mem_eraseDups.mpr h) outer rfl)
    rw [paramsAlong, paramsAlong, ownParams_append h, ih houter]

/-- The parameters of a type are those of the type around it and its
own. -/
theorem paramsAlong_eq (ds : List (TypePath × TypeDecl)) (path : TypePath) :
    paramsAlong ds path
      = ((path.outer.map (paramsAlong ds)).getD []) ++ ownParams ds path := by
  cases path with
  | top space name => rw [paramsAlong]; rfl
  | inner outer name => rw [paramsAlong]; rfl

end FirstDeclarations

-- ================================================================ rows

/-- The tokens of the methods that steps add to the type at a path, in
order. -/
def methodTokens (steps : List Step) (path : TypePath) : List Token :=
  ((pushed steps).zipIdx.filter fun x => x.1.1 = path).map fun x =>
    .ofRow .methodDef (x.2 + 1)

/-- The tokens of the types directly inside the type at a path. -/
def nestedTokens (rows : List TypePath) (path : TypePath) : List Token :=
  (rows.filter fun q => q.outer = some path).map (tokenIn rows)

/-- The row of the type at a path. -/
def typeRow (steps : List Step) (path : TypePath) : TypeDef where
  token := tokenIn (rowsOf steps) path
  name := path.name
  space := path.space
  flags := attributesOf (entered steps) path
  enclosing := path.outer.map (tokenIn (rowsOf steps))
  genericParams := paramsAlong (entered steps) path
  methods := methodTokens steps path
  nested := nestedTokens (rowsOf steps) path
  isGenerated := false

/-- The row that stands for the module itself. -/
def moduleRow : TypeDef :=
  ⟨.ofRow .typeDef 1, "<Module>", "", .empty, none, [], [], [], false⟩

/-- The types of a module after steps. -/
def typesIn (steps : List Step) : List TypeDef :=
  moduleRow :: (rowsOf steps).map (typeRow steps)

/-- A method without what depends on options and on the bodies before. -/
def bare (m : MethodDef) : MethodDef := { m with implFlags := .empty, bodyAddress := 0 }

/-- The row of the method that is added at an index. -/
def methodRow (rows : List TypePath) (x : (TypePath × Lowered) × Nat) : MethodDef :=
  bare { x.1.2.method with
    token := .ofRow .methodDef (x.2 + 1), declaringType := tokenIn rows x.1.1 }

/-- The methods of a module after steps, each `bare`. -/
def methodsIn (steps : List Step) : List MethodDef :=
  (pushed steps).zipIdx.map (methodRow (rowsOf steps))

/-- Whether the types around types and those around methods are
entered. -/
structure Grounded (steps : List Step) : Prop where
  rooted : Rooted (rowsOf steps)
  housed : ∀ p ∈ pushed steps, p.1 ∈ rowsOf steps

-- ============================================================ one step

variable {steps : List Step} {path : TypePath} {decl : TypeDecl} {l : Lowered}

theorem mem_rowsOf : path ∈ rowsOf steps ↔ path ∈ (entered steps).map Prod.fst := by
  unfold rowsOf
  exact List.mem_eraseDups

theorem zipIdx_pushed_push :
    (pushed (steps ++ [.push path l])).zipIdx
      = (pushed steps).zipIdx ++ [((path, l), (pushed steps).length)] := by
  rw [pushed_append, List.zipIdx_append, Nat.zero_add]
  rfl

theorem pushed_enter : pushed (steps ++ [.enter path decl]) = pushed steps := by
  rw [pushed_append]
  exact List.append_nil _

theorem entered_push : entered (steps ++ [.push path l]) = entered steps := by
  rw [entered_append]
  exact List.append_nil _

theorem entered_enter :
    entered (steps ++ [.enter path decl]) = entered steps ++ [(path, decl)] := by
  rw [entered_append]
  rfl

/-- A method is listed with the type it is added to. -/
theorem methodTokens_push (q : TypePath) :
    methodTokens (steps ++ [.push path l]) q
      = if q = path then methodTokens steps q ++ [.ofRow .methodDef ((pushed steps).length + 1)]
        else methodTokens steps q := by
  unfold methodTokens
  rw [zipIdx_pushed_push, List.filter_append, List.map_append]
  by_cases h : q = path
  · rw [if_pos h, List.filter_cons_of_pos (by simpa using h.symm)]
    rfl
  · have hne : ¬ path = q := fun heq => h heq.symm
    rw [if_neg h, List.filter_cons_of_neg (by simpa using hne)]
    exact List.append_nil _

/-- A new type is linked into the type around it. -/
theorem nestedTokens_concat {rows : List TypePath} (hfresh : path ∉ rows) (q : TypePath) :
    nestedTokens (rows ++ [path]) q
      = if path.outer = some q then
          nestedTokens rows q ++ [Token.ofRow .typeDef (rows.length + 2)]
        else nestedTokens rows q := by
  have hold : (rows.filter fun p => p.outer = some q).map (tokenIn (rows ++ [path]))
      = nestedTokens rows q := by
    unfold nestedTokens
    refine List.map_congr_left fun p hp => ?_
    exact tokenIn_append (List.mem_filter.mp hp).1
  have hsplit : nestedTokens (rows ++ [path]) q
      = nestedTokens rows q
        ++ ([path].filter fun p => p.outer = some q).map (tokenIn (rows ++ [path])) := by
    rw [← hold, nestedTokens, List.filter_append, List.map_append]
  rw [hsplit]
  by_cases h : path.outer = some q
  · rw [if_pos h, List.filter_cons_of_pos (by simpa using h), List.filter_nil,
      List.map_singleton, tokenIn_concat hfresh]
  · rw [if_neg h, List.filter_cons_of_neg (by simpa using h), List.filter_nil, List.map_nil,
      List.append_nil]

/-- Entering a type again changes no row. -/
theorem typesIn_enter_again (hg : Grounded steps) (h : path ∈ rowsOf steps) :
    typesIn (steps ++ [.enter path decl]) = typesIn steps := by
  unfold typesIn
  rw [rowsOf_enter_again h]
  congr 1
  refine List.map_congr_left fun q hq => ?_
  have hq' := mem_rowsOf.mp hq
  simp only [typeRow, rowsOf_enter_again h, methodTokens, pushed_enter, entered_enter,
    attributesOf_append hq', paramsAlong_append hg.rooted q hq']

theorem methodsIn_enter_again (h : path ∈ rowsOf steps) :
    methodsIn (steps ++ [.enter path decl]) = methodsIn steps := by
  unfold methodsIn
  rw [rowsOf_enter_again h, pushed_enter]

/-- The methods keep their types when a type is added. -/
theorem methodsIn_enter_fresh (hg : Grounded steps) (h : path ∉ rowsOf steps) :
    methodsIn (steps ++ [.enter path decl]) = methodsIn steps := by
  unfold methodsIn
  rw [rowsOf_enter_fresh h, pushed_enter]
  refine List.map_congr_left fun x hx => ?_
  have hmem : x.1 ∈ pushed steps := by
    obtain ⟨p, i⟩ := x
    exact List.fst_mem_of_mem_zipIdx hx
  unfold methodRow
  rw [tokenIn_append (hg.housed x.1 hmem)]

theorem methodsIn_push :
    methodsIn (steps ++ [.push path l])
      = methodsIn steps
        ++ [methodRow (rowsOf steps) ((path, l), (pushed steps).length)] := by
  unfold methodsIn
  rw [rowsOf_push, zipIdx_pushed_push, List.map_append, List.map_singleton]

/-- A method changes the row of its type alone. -/
theorem typeRow_push (q : TypePath) :
    typeRow (steps ++ [.push path l]) q
      = if q = path then
          { typeRow steps q with
            methods := (typeRow steps q).methods
              ++ [.ofRow .methodDef ((pushed steps).length + 1)] }
        else typeRow steps q := by
  simp only [typeRow, rowsOf_push, entered_push, methodTokens_push]
  split <;> rfl

/-- A new type changes the row of the type around it alone. -/
theorem typeRow_enter_of_mem (hg : Grounded steps) (h : path ∉ rowsOf steps) {q : TypePath}
    (hq : q ∈ rowsOf steps) :
    typeRow (steps ++ [.enter path decl]) q
      = if path.outer = some q then
          { typeRow steps q with
            nested := (typeRow steps q).nested
              ++ [.ofRow .typeDef ((rowsOf steps).length + 2)] }
        else typeRow steps q := by
  have hq' := mem_rowsOf.mp hq
  have hkey : keyIn (rowsOf steps ++ [path]) q = keyIn (rowsOf steps) q :=
    keyIn_append hg.rooted hq
  have henclosing : q.outer.map (tokenIn (rowsOf steps ++ [path]))
      = q.outer.map (tokenIn (rowsOf steps)) := congrArg TypeKey.enclosing hkey
  simp only [typeRow, rowsOf_enter_fresh h, methodTokens, pushed_enter, entered_enter,
    attributesOf_append hq', paramsAlong_append hg.rooted q hq', tokenIn_append hq, henclosing,
    nestedTokens_concat h]
  split <;> rfl

/-- The row of a new type. -/
theorem typeRow_enter_fresh (hg : Grounded steps) (h : path ∉ rowsOf steps)
    (houter : ∀ outer, path.outer = some outer → outer ∈ rowsOf steps) :
    typeRow (steps ++ [.enter path decl]) path
      = ⟨.ofRow .typeDef ((rowsOf steps).length + 2), path.name, path.space,
          typeAttributes decl.kind path.outer.isSome decl.modifiers decl.members,
          path.outer.map (tokenIn (rowsOf steps)),
          ((path.outer.map (paramsAlong (entered steps))).getD []) ++ decl.typeParams,
          [], [], false⟩ := by
  have hnew : path ∉ (entered steps).map Prod.fst := fun hmem => h (mem_rowsOf.mpr hmem)
  have hfirst : firstDecl? (entered steps ++ [(path, decl)]) path = some decl :=
    firstDecl?_concat hnew
  have henclosing : path.outer.map (tokenIn (rowsOf steps ++ [path]))
      = path.outer.map (tokenIn (rowsOf steps)) := by
    cases ho : path.outer with
    | none => rfl
    | some outer => rw [Option.map_some, Option.map_some, tokenIn_append (houter outer ho)]
  have hparams : paramsAlong (entered steps ++ [(path, decl)]) path
      = ((path.outer.map (paramsAlong (entered steps))).getD []) ++ decl.typeParams := by
    rw [paramsAlong_eq]
    have hown : ownParams (entered steps ++ [(path, decl)]) path = decl.typeParams := by
      unfold ownParams
      rw [hfirst]
      rfl
    rw [hown]
    cases ho : path.outer with
    | none => rfl
    | some outer =>
      have hmem := mem_rowsOf.mp (houter outer ho)
      rw [Option.map_some, Option.map_some, paramsAlong_append hg.rooted outer hmem]
  have hmethods : methodTokens steps path = [] := by
    unfold methodTokens
    rw [List.map_eq_nil_iff, List.filter_eq_nil_iff]
    rintro ⟨p, i⟩ hp heq
    have hpath : p.1 = path := by simpa using heq
    exact h (hpath ▸ hg.housed p (List.fst_mem_of_mem_zipIdx hp))
  have hnested : nestedTokens (rowsOf steps ++ [path]) path = [] := by
    rw [nestedTokens_concat h, if_neg fun heq => h (houter path heq)]
    unfold nestedTokens
    rw [List.map_eq_nil_iff, List.filter_eq_nil_iff]
    intro q hq heq
    exact h (hg.rooted q hq path (by simpa using heq))
  have hflags : attributesOf (entered steps ++ [(path, decl)]) path
      = typeAttributes decl.kind path.outer.isSome decl.modifiers decl.members := by
    unfold attributesOf
    rw [hfirst]
    rfl
  have hmethods' : methodTokens (steps ++ [.enter path decl]) path = [] := by
    rw [← hmethods, methodTokens, pushed_enter]
    rfl
  simp only [typeRow, rowsOf_enter_fresh h, entered_enter, tokenIn_concat h, henclosing, hparams,
    hmethods', hnested, hflags]

-- ============================================================ grounding

theorem grounded_nil : Grounded [] where
  rooted := by
    intro path h
    simp [rowsOf, entered] at h
  housed := by
    intro p h
    simp [pushed] at h

theorem grounded_enter (hg : Grounded steps)
    (houter : ∀ outer, path.outer = some outer → outer ∈ rowsOf steps) :
    Grounded (steps ++ [.enter path decl]) := by
  have hsub : ∀ q ∈ rowsOf steps, q ∈ rowsOf (steps ++ [.enter path decl]) := fun q hq =>
    (rowsOf_isPrefix steps _).subset hq
  constructor
  · intro q hq outer ho
    apply hsub
    by_cases h : path ∈ rowsOf steps
    · rw [rowsOf_enter_again h] at hq
      exact hg.rooted q hq outer ho
    · rw [rowsOf_enter_fresh h, List.mem_append, List.mem_singleton] at hq
      rcases hq with hq | rfl
      · exact hg.rooted q hq outer ho
      · exact houter outer ho
  · intro p hp
    rw [pushed_enter] at hp
    exact hsub p.1 (hg.housed p hp)

theorem grounded_push (hg : Grounded steps) (h : path ∈ rowsOf steps) :
    Grounded (steps ++ [.push path l]) := by
  constructor
  · rw [rowsOf_push]
    exact hg.rooted
  · intro p hp
    rw [rowsOf_push]
    rw [pushed_append, List.mem_append] at hp
    rcases hp with hp | hp
    · exact hg.housed p hp
    · rw [show p = (path, l) by simpa [pushed] using hp]
      exact h

end ClrListing.Lowering
