/-
Modules built row by row stay in order.

A module under construction says most things twice: a row has a place and a
token, a nested type names the type around it and is listed there, a method
names its type and is listed there. Each operation updates both sides by
arithmetic on rows. `Linked` says that the two sides agree, as lists: what a
type lists are the rows that name it, in their order. One operation keeps
that (`linked_perform`), because on a linked module it does no more than
change the one type that it is told of and add a row at the end
(`types_perform`, `methods_perform`); so every run of operations does
(`linked_of_builds`).
-/
import ClrListing.Assembly.Builder
import ClrListing.Proofs.Assembly.Naming

namespace ClrListing.Assembly

open Metadata

-- ========================================================== operations

/-- What may be done to a module under construction. -/
inductive Operation where
  /-- A type is added, in the type that it names if it names one. -/
  | addType (t : Builder.NewType)
  /-- A method is added to a type. -/
  | addMethod (declaring : Token) (m : MethodDef)
  /-- It is noted that the compiler made up a type. -/
  | markGenerated (type : Token)

namespace Operation

/-- The token that an operation is told, if it is told one. -/
def told : Operation → Option Token
  | .addType t => t.enclosing
  | .addMethod declaring _ => some declaring
  | .markGenerated type => some type

/-- The tokens that an operation hands out for types. -/
def handedOut (b : Builder) : Operation → List Token
  | .addType _ => [b.nextType]
  | .addMethod _ _ | .markGenerated _ => []

/-- What becomes of the type that an operation is told of. -/
def change (b : Builder) (t : TypeDef) : Operation → TypeDef
  | .addType _ => { t with nested := t.nested ++ [b.nextType] }
  | .addMethod _ _ => { t with methods := t.methods ++ [b.nextMethod] }
  | .markGenerated _ => { t with isGenerated := true }

/-- The types that an operation adds. -/
def newTypes (b : Builder) : Operation → List TypeDef
  | .addType t =>
    [⟨b.nextType, t.name, t.space, t.flags, t.enclosing, t.genericParams, [], [], false⟩]
  | .addMethod _ _ | .markGenerated _ => []

/-- The methods that an operation adds. -/
def newMethods (b : Builder) : Operation → List MethodDef
  | .addMethod declaring m => [{ m with token := b.nextMethod, declaringType := declaring }]
  | .addType _ | .markGenerated _ => []

end Operation

/-- The module after an operation. -/
def Builder.perform (b : Builder) : Operation → Builder
  | .addType t => b.addType t
  | .addMethod declaring m => b.addMethod declaring m
  | .markGenerated type => b.markGenerated type

/-- Whether an operation is told only tokens that were handed out. -/
def Operation.Allowed (handed : List Token) (op : Operation) : Prop :=
  ∀ token, op.told = some token → token ∈ handed

instance (handed : List Token) (op : Operation) : Decidable (op.Allowed handed) :=
  inferInstanceAs (Decidable (∀ token ∈ op.told, token ∈ handed))

/-- What a run of operations makes of a new module, with the tokens that
were handed out for types on the way. No operation is told a token that was
not handed out before it; that of the module's own type is. -/
inductive Builds (name : String) : List Operation → List Token → Builder → Prop
  | new : Builds name [] [.ofRow .typeDef 1] (.new name)
  | step {ops : List Operation} {handed : List Token} {b : Builder} {op : Operation} :
      Builds name ops handed b → op.Allowed handed →
      Builds name (ops ++ [op]) (handed ++ op.handedOut b) (b.perform op)

-- ======================================================== linked modules

/-- What a module under construction says twice it says alike. -/
structure Linked (b : Builder) : Prop where
  /-- Types are numbered by their places. -/
  types : ∀ (i : Nat) t, b.types[i]? = some t → t.token = .ofRow .typeDef (i + 1)
  /-- Methods are numbered by their places. -/
  methods : ∀ (i : Nat) m, b.methods[i]? = some m → m.token = .ofRow .methodDef (i + 1)
  /-- The type around a type is in an earlier row. -/
  inside : ∀ t ∈ b.types, ∀ outer, t.enclosing = some outer →
    (∃ e ∈ b.types, e.token = outer) ∧ outer.row < t.token.row
  /-- A method's type is there. -/
  declared : ∀ m ∈ b.methods, ∃ t ∈ b.types, t.token = m.declaringType
  /-- A type lists the types that stand in it, in their order. -/
  nested : ∀ t ∈ b.types,
    t.nested = (b.types.filter fun u => u.enclosing = some t.token).map TypeDef.token
  /-- A type lists its methods, in their order. -/
  listed : ∀ t ∈ b.types,
    t.methods = (b.methods.filter fun m => m.declaringType = t.token).map MethodDef.token

variable {b : Builder} {op : Operation} {handed : List Token} {token : Token}

namespace Linked

/-- A type is known by its token. -/
theorem types_inj (h : Linked b) (hfit : b.types.length < Token.rowLimit) {i j : Nat}
    {t u : TypeDef} (ht : b.types[i]? = some t) (hu : b.types[j]? = some u)
    (heq : t.token = u.token) : i = j := by
  have hi := (List.getElem?_eq_some_iff.mp ht).1
  have hj := (List.getElem?_eq_some_iff.mp hu).1
  rw [h.types i t ht, h.types j u hu] at heq
  have hrow := Token.ofRow_inj (by omega) (by omega) heq
  omega

/-- The tokens of types are in the rows that there are. -/
theorem row_le (h : Linked b) (hfit : b.types.length < Token.rowLimit) {t : TypeDef}
    (ht : t ∈ b.types) : t.token.row ≤ b.types.length := by
  obtain ⟨i, hi, rfl⟩ := List.getElem_of_mem ht
  rw [h.types i _ (List.getElem?_eq_getElem hi), Token.row_ofRow (by omega)]
  omega

/-- Changing the type of a token changes no other. -/
theorem types_modifyType (h : Linked b) (hfit : b.types.length < Token.rowLimit)
    (hmem : ∃ t ∈ b.types, t.token = token) (f : TypeDef → TypeDef) :
    (b.modifyType token f).types
      = b.types.map fun t => if some token = some t.token then f t else t := by
  obtain ⟨t, ht, rfl⟩ := hmem
  obtain ⟨i, hi, rfl⟩ := List.getElem_of_mem ht
  have hat := List.getElem?_eq_getElem hi
  have hrow : (b.types[i]).token.row = i + 1 := by
    rw [h.types i _ hat]
    exact Token.row_ofRow (by omega)
  unfold Builder.modifyType
  rw [hrow, if_neg (by omega), Nat.add_sub_cancel]
  apply List.ext_getElem?
  intro j
  simp only [List.getElem?_modify, List.getElem?_map]
  cases hj : b.types[j]? with
  | none => rfl
  | some u =>
    by_cases hij : i = j
    · subst hij
      obtain rfl := Option.some.inj (hat.symm.trans hj)
      simp
    · have hne : ¬ (b.types[i]).token = u.token := fun heq => hij (h.types_inj hfit hat hj heq)
      simp [hij, hne]

end Linked

/-- An operation hands out the tokens of the types that it adds, and takes
no token back. -/
theorem tokens_perform (b : Builder) (op : Operation) :
    (b.perform op).types.map TypeDef.token = b.types.map TypeDef.token ++ op.handedOut b := by
  cases op with
  | addType t =>
    have hsame := Builder.map_linkNested b t.enclosing b.nextType
      (g := TypeDef.token) fun _ _ => rfl
    show ((b.linkNested t.enclosing b.nextType).types ++ [_]).map _ = _
    rw [List.map_append, hsame]
    rfl
  | addMethod declaring m =>
    rw [Operation.handedOut, List.append_nil]
    exact Builder.map_modifyType b declaring fun _ => rfl
  | markGenerated type =>
    rw [Operation.handedOut, List.append_nil]
    exact Builder.map_modifyType b type fun _ => rfl

theorem length_types_perform (b : Builder) (op : Operation) :
    b.types.length ≤ (b.perform op).types.length := by
  have hlength := congrArg List.length (tokens_perform b op)
  simp at hlength
  omega

/-- The tokens that were handed out are those of the types. -/
theorem handed_eq {name : String} {ops : List Operation} (h : Builds name ops handed b) :
    handed = b.types.map TypeDef.token := by
  induction h with
  | new => rfl
  | step _ _ ih => rw [tokens_perform, ih]

-- ======================================================== one operation

/-- An operation changes the type that it is told of and adds types behind
the others. -/
theorem types_perform (h : Linked b) (hfit : b.types.length < Token.rowLimit)
    (hallowed : op.Allowed (b.types.map TypeDef.token)) :
    (b.perform op).types
      = b.types.map (fun t => if op.told = some t.token then op.change b t else t)
        ++ op.newTypes b := by
  have hknown : ∀ token, op.told = some token → ∃ t ∈ b.types, t.token = token :=
    fun token htold => List.mem_map.mp (hallowed token htold)
  cases op with
  | addType t =>
    show (b.linkNested t.enclosing b.nextType).types ++ [_] = _
    congr 1
    cases houter : t.enclosing with
    | none => simp [Builder.linkNested, Operation.told, houter]
    | some outer =>
      rw [Operation.told, houter]
      exact h.types_modifyType hfit (hknown outer houter) _
  | addMethod declaring m =>
    rw [Operation.newTypes, List.append_nil]
    exact h.types_modifyType hfit (hknown declaring rfl) _
  | markGenerated type =>
    rw [Operation.newTypes, List.append_nil]
    exact h.types_modifyType hfit (hknown type rfl) _

/-- An operation adds methods behind the others. -/
theorem methods_perform (b : Builder) (op : Operation) :
    (b.perform op).methods = b.methods ++ op.newMethods b := by
  have hmodify : ∀ token f, (b.modifyType token f).methods = b.methods := by
    intro token f
    unfold Builder.modifyType
    split <;> rfl
  cases op with
  | addType t =>
    show (b.linkNested t.enclosing b.nextType).methods = _
    rw [Operation.newMethods, List.append_nil]
    unfold Builder.linkNested
    split
    · exact hmodify _ _
    · rfl
  | addMethod declaring m =>
    show (b.modifyType declaring _).methods ++ [_] = _
    rw [hmodify]
    rfl
  | markGenerated type =>
    rw [Operation.newMethods, List.append_nil]
    exact hmodify _ _

-- ============================================================ one step

/-- A type after an operation, whether it is told of it or not. -/
def changed (b : Builder) (op : Operation) (t : TypeDef) : TypeDef :=
  if op.told = some t.token then op.change b t else t

theorem token_changed (b : Builder) (op : Operation) (t : TypeDef) :
    (changed b op t).token = t.token := by
  unfold changed
  split
  · cases op <;> rfl
  · rfl

theorem enclosing_changed (b : Builder) (op : Operation) (t : TypeDef) :
    (changed b op t).enclosing = t.enclosing := by
  unfold changed
  split
  · cases op <;> rfl
  · rfl

/-- The types in a type are those that were in it, and one that is added to
it. -/
theorem nested_changed (b : Builder) (op : Operation) (t : TypeDef) :
    (changed b op t).nested
      = t.nested
        ++ ((op.newTypes b).filter fun u => u.enclosing = some t.token).map TypeDef.token := by
  unfold changed
  cases op with
  | addType n =>
    by_cases htold : n.enclosing = some t.token
    · simp [Operation.told, Operation.change, Operation.newTypes, htold]
    · simp [Operation.told, Operation.newTypes, htold]
  | addMethod declaring m =>
    simp only [Operation.newTypes, List.filter_nil, List.map_nil, List.append_nil]
    split <;> rfl
  | markGenerated type =>
    simp only [Operation.newTypes, List.filter_nil, List.map_nil, List.append_nil]
    split <;> rfl

/-- The methods of a type are those that it had, and one that is added to
it. -/
theorem methods_changed (b : Builder) (op : Operation) (t : TypeDef) :
    (changed b op t).methods
      = t.methods
        ++ ((op.newMethods b).filter fun m => m.declaringType = t.token).map MethodDef.token := by
  unfold changed
  cases op with
  | addType n =>
    simp only [Operation.newMethods, List.filter_nil, List.map_nil, List.append_nil]
    split <;> rfl
  | addMethod declaring m =>
    by_cases htold : declaring = t.token
    · simp [Operation.told, Operation.change, Operation.newMethods, htold]
    · simp [Operation.told, Operation.newMethods, htold]
  | markGenerated type =>
    simp only [Operation.newMethods, List.filter_nil, List.map_nil, List.append_nil]
    split <;> rfl

/-- A type that is added gets the next token, stands in the type that the
operation is told of, and lists nothing. -/
theorem of_mem_newTypes {t : TypeDef} (h : t ∈ op.newTypes b) :
    t.token = b.nextType ∧ t.enclosing = op.told ∧ t.nested = [] ∧ t.methods = []
      ∧ op.newTypes b = [t] := by
  cases op with
  | addType n =>
    obtain rfl := List.mem_singleton.mp h
    exact ⟨rfl, rfl, rfl, rfl, rfl⟩
  | addMethod declaring m => cases h
  | markGenerated type => cases h

/-- A method that is added gets the next token and the type that the
operation is told of. -/
theorem of_mem_newMethods {m : MethodDef} (h : m ∈ op.newMethods b) :
    m.token = b.nextMethod ∧ op.told = some m.declaringType ∧ op.newMethods b = [m] := by
  cases op with
  | addType n => cases h
  | addMethod declaring m =>
    obtain rfl := List.mem_singleton.mp h
    exact ⟨rfl, rfl, rfl⟩
  | markGenerated type => cases h

section Step

variable {t : TypeDef} {m : MethodDef}

theorem nextType_not_mem (h : Linked b) (hfit : b.types.length + 1 < Token.rowLimit) :
    b.nextType ∉ b.types.map TypeDef.token := by
  intro hmem
  obtain ⟨t, ht, htoken⟩ := List.mem_map.mp hmem
  have hle := h.row_le (by omega) ht
  rw [htoken, Builder.nextType, Token.row_ofRow hfit] at hle
  omega

theorem exists_of_token (op : Operation) (hmem : token ∈ b.types.map TypeDef.token) :
    ∃ t ∈ (b.perform op).types, t.token = token := by
  rw [← List.mem_map, tokens_perform]
  exact List.mem_append_left _ hmem

/-- What an operation makes of a linked module, if it may: the types as they
are changed, and those that are added, behind them. -/
structure Performed (b : Builder) (op : Operation) : Prop where
  before : Linked b
  allowed : op.Allowed (b.types.map TypeDef.token)
  fits : (b.perform op).types.length < Token.rowLimit

namespace Performed

theorem fitsBefore (h : Performed b op) : b.types.length < Token.rowLimit :=
  Nat.lt_of_le_of_lt (length_types_perform b op) h.fits

theorem types_eq (h : Performed b op) :
    (b.perform op).types = b.types.map (changed b op) ++ op.newTypes b :=
  types_perform h.before h.fitsBefore h.allowed

theorem mem_types (h : Performed b op) (ht : t ∈ (b.perform op).types) :
    (∃ u ∈ b.types, changed b op u = t) ∨ t ∈ op.newTypes b := by
  rwa [h.types_eq, List.mem_append, List.mem_map] at ht

/-- A type that is added is the first to have its token, and nothing says
that it is in it. -/
theorem fresh (h : Performed b op) (ht : t ∈ op.newTypes b) :
    t.token ∉ b.types.map TypeDef.token ∧ op.told ≠ some t.token := by
  obtain ⟨htoken, -, -, -, hnew⟩ := of_mem_newTypes ht
  have hfit := h.fits
  rw [h.types_eq, hnew] at hfit
  have hfresh := nextType_not_mem h.before (by simpa using hfit)
  rw [htoken]
  exact ⟨hfresh, fun htold => hfresh (h.allowed _ htold)⟩

theorem numbered (h : Performed b op) (i : Nat) (ht : (b.perform op).types[i]? = some t) :
    t.token = .ofRow .typeDef (i + 1) := by
  have hat : ((b.perform op).types.map TypeDef.token)[i]? = some t.token := by simp [ht]
  rw [tokens_perform, List.getElem?_append] at hat
  split at hat
  · rw [List.getElem?_map] at hat
    obtain ⟨u, hu, htoken⟩ := Option.map_eq_some_iff.mp hat
    rw [← htoken, h.before.types i u hu]
  · next hge =>
    rw [List.length_map] at hat hge
    cases op with
    | addType n =>
      obtain ⟨hlt, hnext⟩ := List.getElem?_eq_some_iff.mp hat
      obtain rfl : i = b.types.length := by
        simp [Operation.handedOut] at hlt
        omega
      simpa [Operation.handedOut, Builder.nextType] using hnext.symm
    | addMethod declaring m => simp [Operation.handedOut] at hat
    | markGenerated type => simp [Operation.handedOut] at hat

theorem numberedMethods (h : Performed b op) (i : Nat)
    (hm : (b.perform op).methods[i]? = some m) : m.token = .ofRow .methodDef (i + 1) := by
  rw [methods_perform, List.getElem?_append] at hm
  split at hm
  · exact h.before.methods i m hm
  · next hge =>
    obtain ⟨htoken, -, hnew⟩ := of_mem_newMethods (List.mem_of_getElem? hm)
    have hlt := (List.getElem?_eq_some_iff.mp hm).1
    obtain rfl : i = b.methods.length := by
      simp [hnew] at hlt
      omega
    exact htoken

theorem inside (h : Performed b op) (ht : t ∈ (b.perform op).types) {outer : Token}
    (houter : t.enclosing = some outer) :
    (∃ e ∈ (b.perform op).types, e.token = outer) ∧ outer.row < t.token.row := by
  rcases h.mem_types ht with ⟨u, hu, rfl⟩ | hnew
  · rw [enclosing_changed] at houter
    obtain ⟨⟨e, he, htoken⟩, hlt⟩ := h.before.inside u hu outer houter
    rw [token_changed]
    exact ⟨exists_of_token op (List.mem_map.mpr ⟨e, he, htoken⟩), hlt⟩
  · obtain ⟨htoken, htold, -, -, hnew⟩ := of_mem_newTypes hnew
    have hknown := h.allowed outer (htold ▸ houter)
    obtain ⟨e, he, rfl⟩ := List.mem_map.mp hknown
    have hfit := h.fits
    rw [h.types_eq, hnew] at hfit
    refine ⟨exists_of_token op hknown, ?_⟩
    have hle := h.before.row_le h.fitsBefore he
    rw [htoken, Builder.nextType, Token.row_ofRow (by simpa using hfit)]
    omega

theorem declared (h : Performed b op) (hm : m ∈ (b.perform op).methods) :
    ∃ t ∈ (b.perform op).types, t.token = m.declaringType := by
  rw [methods_perform] at hm
  rcases List.mem_append.mp hm with hm | hm
  · obtain ⟨t, ht, htoken⟩ := h.before.declared m hm
    exact exists_of_token op (List.mem_map.mpr ⟨t, ht, htoken⟩)
  · exact exists_of_token op (h.allowed _ (of_mem_newMethods hm).2.1)

theorem nested (h : Performed b op) (ht : t ∈ (b.perform op).types) :
    t.nested
      = ((b.perform op).types.filter fun u => u.enclosing = some t.token).map TypeDef.token := by
  have hold : ∀ token : Token,
      ((b.types.map (changed b op)).filter fun u => u.enclosing = some token).map TypeDef.token
        = (b.types.filter fun u => u.enclosing = some token).map TypeDef.token := by
    intro token
    rw [List.filter_map, List.map_map]
    simp only [Function.comp_def, enclosing_changed, token_changed]
  rw [h.types_eq, List.filter_append, List.map_append, hold]
  rcases h.mem_types ht with ⟨u, hu, rfl⟩ | hnew
  · rw [token_changed, nested_changed, h.before.nested u hu]
  · obtain ⟨hfresh, huntold⟩ := h.fresh hnew
    obtain ⟨-, htold, hnone, -, hnew⟩ := of_mem_newTypes hnew
    have hnobody : (b.types.filter fun u => u.enclosing = some t.token) = [] := by
      apply List.filter_eq_nil_iff.mpr
      intro u hu heq
      obtain ⟨⟨e, he, htoken⟩, -⟩ := h.before.inside u hu t.token (of_decide_eq_true heq)
      exact hfresh (List.mem_map.mpr ⟨e, he, htoken⟩)
    simp [hnone, hnobody, hnew, htold, huntold]

theorem listed (h : Performed b op) (ht : t ∈ (b.perform op).types) :
    t.methods
      = ((b.perform op).methods.filter fun m => m.declaringType = t.token).map
          MethodDef.token := by
  rw [methods_perform, List.filter_append, List.map_append]
  rcases h.mem_types ht with ⟨u, hu, rfl⟩ | hnew
  · rw [token_changed, methods_changed, h.before.listed u hu]
  · obtain ⟨hfresh, huntold⟩ := h.fresh hnew
    obtain ⟨-, -, -, hnone, -⟩ := of_mem_newTypes hnew
    have hnobody : (b.methods.filter fun m => m.declaringType = t.token) = [] := by
      apply List.filter_eq_nil_iff.mpr
      intro m hm heq
      obtain ⟨e, he, htoken⟩ := h.before.declared m hm
      exact hfresh (List.mem_map.mpr ⟨e, he, htoken.trans (of_decide_eq_true heq)⟩)
    have hnobody' : ((op.newMethods b).filter fun m => m.declaringType = t.token) = [] := by
      apply List.filter_eq_nil_iff.mpr
      intro m hm heq
      rw [← (of_decide_eq_true heq : m.declaringType = t.token)] at huntold
      exact huntold (of_mem_newMethods hm).2.1
    simp [hnone, hnobody, hnobody']

/-- The module is linked afterwards, too. -/
theorem linked (h : Performed b op) : Linked (b.perform op) where
  types i _ ht := h.numbered i ht
  methods i _ hm := h.numberedMethods i hm
  inside _ ht _ houter := h.inside ht houter
  declared _ hm := h.declared hm
  nested _ ht := h.nested ht
  listed _ ht := h.listed ht

end Performed

end Step

-- =============================================================== a run

/-- A new module has the type that stands for it, and is linked. -/
theorem linked_new (name : String) : Linked (.new name) := by
  have htypes : ∀ t ∈ (Builder.new name).types,
      t = ⟨.ofRow .typeDef 1, "<Module>", "", .empty, none, [], [], [], false⟩ := by
    intro t ht
    exact List.mem_singleton.mp ht
  constructor
  · intro i t ht
    cases i with
    | zero =>
      cases ht
      rfl
    | succ i => cases ht
  · intro i m hm
    cases hm
  · intro t ht outer houter
    cases htypes t ht
    cases houter
  · intro m hm
    cases hm
  · intro t ht
    cases htypes t ht
    rfl
  · intro t ht
    cases htypes t ht
    rfl

/-- Every run of operations on a new module ends in a linked one, unless it
is too large. -/
theorem linked_of_run {name : String} {ops : List Operation} (h : Builds name ops handed b)
    (hfit : b.types.length < Token.rowLimit) : Linked b := by
  induction h with
  | new => exact linked_new name
  | @step ops handed b op hrun hallowed ih =>
    have hbefore := ih (Nat.lt_of_le_of_lt (length_types_perform b op) hfit)
    exact Performed.linked ⟨hbefore, handed_eq hrun ▸ hallowed, hfit⟩

theorem nodup_of_ascending {tokens : List Token}
    (h : tokens.Pairwise fun x y => x.row < y.row) : tokens.Nodup := by
  refine h.imp ?_
  rintro x _ hlt rfl
  exact Nat.lt_irrefl _ hlt

namespace Linked

variable {t e : TypeDef} {m : MethodDef}

/-- The tokens of types ascend. -/
theorem ascending_types (h : Linked b) (hfit : b.types.length < Token.rowLimit) :
    (b.types.map TypeDef.token).Pairwise fun x y => x.row < y.row := by
  rw [List.pairwise_iff_getElem]
  intro i j hi hj hij
  rw [List.length_map] at hi hj
  rw [List.getElem_map, List.getElem_map, h.types i _ (List.getElem?_eq_getElem hi),
    h.types j _ (List.getElem?_eq_getElem hj), Token.row_ofRow (by omega),
    Token.row_ofRow (by omega)]
  omega

/-- The tokens of methods ascend. -/
theorem ascending_methods (h : Linked b) (hfit : b.methods.length < Token.rowLimit) :
    (b.methods.map MethodDef.token).Pairwise fun x y => x.row < y.row := by
  rw [List.pairwise_iff_getElem]
  intro i j hi hj hij
  rw [List.length_map] at hi hj
  rw [List.getElem_map, List.getElem_map, h.methods i _ (List.getElem?_eq_getElem hi),
    h.methods j _ (List.getElem?_eq_getElem hj), Token.row_ofRow (by omega),
    Token.row_ofRow (by omega)]
  omega

theorem mem_nested_iff (h : Linked b) (hfit : b.types.length < Token.rowLimit)
    (ht : t ∈ b.types) (he : e ∈ b.types) :
    t.token ∈ e.nested ↔ t.enclosing = some e.token := by
  rw [h.nested e he, List.mem_map]
  constructor
  · rintro ⟨u, hu, heq⟩
    obtain ⟨hu, hin⟩ := List.mem_filter.mp hu
    have hnodup := nodup_of_ascending (h.ascending_types hfit)
    obtain rfl := List.inj_on_of_nodup_map hnodup hu ht heq
    exact of_decide_eq_true hin
  · intro hin
    exact ⟨t, List.mem_filter.mpr ⟨ht, decide_eq_true hin⟩, rfl⟩

theorem mem_methods_iff (h : Linked b) (hfit : b.methods.length < Token.rowLimit)
    (hm : m ∈ b.methods) (ht : t ∈ b.types) :
    m.token ∈ t.methods ↔ m.declaringType = t.token := by
  rw [h.listed t ht, List.mem_map]
  constructor
  · rintro ⟨n, hn, heq⟩
    obtain ⟨hn, hin⟩ := List.mem_filter.mp hn
    have hnodup := nodup_of_ascending (h.ascending_methods hfit)
    obtain rfl := List.inj_on_of_nodup_map hnodup hn hm heq
    exact of_decide_eq_true hin
  · intro hin
    exact ⟨m, List.mem_filter.mpr ⟨hm, decide_eq_true hin⟩, rfl⟩

/-- What stands in one another descends in the rows. -/
theorem row_lt_of_inside (h : Linked b) {outer : Token}
    (hin : b.build.Inside token outer) : outer.row < token.row := by
  obtain ⟨t, ht, houter⟩ := hin
  obtain ⟨hin, hpos, -, hat⟩ := row_of_type? ht
  have hlt := (h.inside t (List.mem_of_getElem? hat) outer houter).2
  rwa [h.types _ t hat, Nat.sub_add_cancel hpos, Token.ofRow_row hin] at hlt

end Linked

-- ====================================================== a whole module

/-- The places, the tokens, the types around and the lists of a module under
construction fit together. -/
structure WellKept (b : Builder) : Prop where
  /-- Types and methods are numbered by their places. -/
  types : ∀ (i : Nat) t, b.types[i]? = some t → t.token = .ofRow .typeDef (i + 1)
  methods : ∀ (i : Nat) m, b.methods[i]? = some m → m.token = .ofRow .methodDef (i + 1)
  /-- The row of the type around a type is smaller. -/
  outward : ∀ t ∈ b.types, ∀ outer, t.enclosing = some outer → outer.row < t.token.row
  /-- A type is listed where it stands, and nowhere else. -/
  nested : ∀ t ∈ b.types, ∀ e ∈ b.types, t.token ∈ e.nested ↔ t.enclosing = some e.token
  /-- A method is listed by its type, and by no other. -/
  listed : ∀ m ∈ b.methods, ∀ t ∈ b.types, m.token ∈ t.methods ↔ m.declaringType = t.token
  /-- Nothing else is listed. -/
  known : ∀ t ∈ b.types, t.nested ⊆ b.types.map TypeDef.token
    ∧ t.methods ⊆ b.methods.map MethodDef.token
  /-- All lists ascend. -/
  ascending : ∀ t ∈ b.types, (t.nested.Pairwise fun x y => x.row < y.row)
    ∧ t.methods.Pairwise fun x y => x.row < y.row

/-- An operation changes no row, except that of the type that it is told
of. -/
structure Leaves (b : Builder) (op : Operation) : Prop where
  others : ∀ (i : Nat) t, b.types[i]? = some t → op.told ≠ some t.token →
    (b.perform op).types[i]? = some t
  told : ∀ (i : Nat) t, b.types[i]? = some t → op.told = some t.token →
    (b.perform op).types[i]? = some (op.change b t)
  methods : ∀ (i : Nat) m, b.methods[i]? = some m → (b.perform op).methods[i]? = some m

theorem Linked.wellKept (h : Linked b) (htypes : b.types.length < Token.rowLimit)
    (hmethods : b.methods.length < Token.rowLimit) : WellKept b where
  types := h.types
  methods := h.methods
  outward t ht outer houter := (h.inside t ht outer houter).2
  nested _ ht _ he := h.mem_nested_iff htypes ht he
  listed _ hm _ ht := h.mem_methods_iff hmethods hm ht
  known t ht := by
    rw [h.nested t ht, h.listed t ht]
    exact ⟨(List.filter_sublist.map _).subset, (List.filter_sublist.map _).subset⟩
  ascending t ht := by
    rw [h.nested t ht, h.listed t ht]
    exact ⟨(h.ascending_types htypes).sublist (List.filter_sublist.map _),
      (h.ascending_methods hmethods).sublist (List.filter_sublist.map _)⟩

theorem Linked.leaves (h : Linked b) (hfit : b.types.length < Token.rowLimit)
    (hallowed : op.Allowed (b.types.map TypeDef.token)) : Leaves b op := by
  have hat : ∀ (i : Nat) t, b.types[i]? = some t →
      (b.perform op).types[i]? = some (changed b op t) := by
    intro i t ht
    have hi := (List.getElem?_eq_some_iff.mp ht).1
    rw [types_perform h hfit hallowed, List.getElem?_append_left (by simpa using hi),
      List.getElem?_map, ht]
    rfl
  constructor
  · intro i t ht huntold
    rw [hat i t ht, changed, if_neg huntold]
  · intro i t ht htold
    rw [hat i t ht, changed, if_pos htold]
  · intro i m hm
    rw [methods_perform, List.getElem?_append_left (List.getElem?_eq_some_iff.mp hm).1, hm]

/-- Whatever is done to a new module, told only tokens that were handed out:
its rows, tokens and lists fit together, every full name is spelled out
without a bound, and whatever may be done next changes no row but that of
the type that it is told of. -/
theorem wellKept_of_builds {name : String} {ops : List Operation} (h : Builds name ops handed b)
    (htypes : b.types.length < Token.rowLimit) (hmethods : b.methods.length < Token.rowLimit) :
    WellKept b
      ∧ (∀ token, ∃ way, Spells b.build way token (b.build.fullName token))
      ∧ ∀ op : Operation, op.Allowed handed → Leaves b op := by
  have hlinked := linked_of_run h htypes
  refine ⟨hlinked.wellKept htypes hmethods, ?_, ?_⟩
  · exact exists_spells_of_rows fun _ _ => hlinked.row_lt_of_inside
  · intro op hallowed
    rw [handed_eq h] at hallowed
    exact hlinked.leaves htypes hallowed

/-- A type with a type and a method in it, which has a method, too, and is
made up by a compiler. -/
def nestedRun : List Operation :=
  [.addType ⟨"N", "A", .empty, none, []⟩,
    .addType ⟨"", "B`1", .empty, some (.ofRow .typeDef 2), ["T"]⟩,
    .addMethod (.ofRow .typeDef 3) (.ofSignature "X" (.nothing false)),
    .addMethod (.ofRow .typeDef 2) (.ofSignature "Y" (.nothing true)),
    .markGenerated (.ofRow .typeDef 3)]

theorem wellKept_of_nestedRun :
    ∃ handed b, Builds "Sample" nestedRun handed b ∧ b.types.length < Token.rowLimit
      ∧ b.methods.length < Token.rowLimit ∧ WellKept b
      ∧ Leaves b (.addMethod (.ofRow .typeDef 3) (.ofSignature "Z" (.nothing false))) := by
  have hoperation : ∀ {ops handed b} (op : Operation), Builds "Sample" ops handed b →
      op.Allowed handed → Builds "Sample" (ops ++ [op]) (handed ++ op.handedOut b) (b.perform op) :=
    fun _ hrun hallowed => .step hrun hallowed
  have hrun : Builds "Sample" nestedRun _ _ :=
    hoperation nestedRun[4] (hoperation nestedRun[3] (hoperation nestedRun[2]
      (hoperation nestedRun[1] (hoperation nestedRun[0] .new (by decide)) (by decide))
      (by decide)) (by decide)) (by decide)
  obtain ⟨hkept, -, hleaves⟩ := wellKept_of_builds hrun (by decide) (by decide)
  exact ⟨_, _, hrun, by decide, by decide, hkept, hleaves _ (by decide)⟩

end ClrListing.Assembly
