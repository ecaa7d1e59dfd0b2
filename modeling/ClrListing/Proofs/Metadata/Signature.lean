/-
Signatures are read back as they were written.

A signature can be written in many ways: custom modifiers and pins may
stand before any type, a sentinel before any parameter, a function
pointer holds a signature of its own, and an array its sizes and lower
bounds, none of which the value of a signature keeps. `TypeForm` and
`MethodForm` are signatures as they are written, with all of that; they
have bytes and a value. The reader gives the value back from the bytes,
whatever stands behind them, as long as types do not stand too deep
(`reads_methodForm`), and every value that fits is the value of such a
form (`MethodSig.plain_writes`).
-/
import ClrListing.Metadata.Signature
import ClrListing.Proofs.Metadata.Reads

namespace ClrListing.Metadata

open Assembly (Primitive)

-- =============================================================== forms

/-- What may stand before a type and leaves no trace in its value. -/
inductive TypeMark where
  /-- A custom modifier that must be understood. -/
  | required (token : Token)
  /-- A custom modifier that may be ignored. -/
  | optional (token : Token)
  /-- The mark of what must not move. -/
  | pinned
  deriving DecidableEq, Repr, Inhabited

mutual

/-- A type as it is written in a signature. -/
inductive TypeForm where
  | primitive (p : Primitive)
  /-- A type that is known by its token, said to be a value type or a
  class. -/
  | named (isValue : Bool) (token : Token)
  | generic (isValue : Bool) (token : Token) (args : List TypeForm)
  | vector (element : TypeForm)
  /-- An array with some of its sizes and lower bounds. -/
  | array (element : TypeForm) (rank : Nat) (sizes : List Nat) (lowerBounds : List Int)
  | pointer (target : TypeForm)
  | byRef (target : TypeForm)
  | typeParam (index : Nat)
  | methodParam (index : Nat)
  | functionPointer (signature : MethodForm)
  /-- A type with a mark before it. -/
  | marked (mark : TypeMark) (inner : TypeForm)

/-- A parameter as it is written: its type, and whether a sentinel stands
before it. -/
inductive ParamForm where
  | mk (afterSentinel : Bool) (type : TypeForm)

/-- The signature of a method as it is written. The first byte tells
whether the number of type parameters follows. -/
inductive MethodForm where
  | mk (convention : UInt8) (genericCount : Nat) (returnType : TypeForm) (params : List ParamForm)

end

/-- Whether the number of type parameters follows a first byte. -/
def isGenericConvention (convention : UInt8) : Bool := convention.toNat.testBit 4

-- ============================================================== values

mutual

/-- The type that a form writes. -/
def TypeForm.value : TypeForm → TypeSig
  | .primitive p => .primitive p
  | .named _ token => .named token
  | .generic _ token args => .generic token (typeValues args)
  | .vector element => .vector element.value
  | .array element rank _ _ => .array element.value rank
  | .pointer target => .pointer target.value
  | .byRef target => .byRef target.value
  | .typeParam index => .typeParam index
  | .methodParam index => .methodParam index
  | .functionPointer _ => .functionPointer
  | .marked _ inner => inner.value

/-- The types that forms write. -/
def typeValues : List TypeForm → List TypeSig
  | [] => []
  | t :: rest => t.value :: typeValues rest

end

/-- The types of the parameters that forms write. -/
def paramValues : List ParamForm → List TypeSig
  | [] => []
  | ⟨_, type⟩ :: rest => type.value :: paramValues rest

/-- The signature that a form writes. -/
def MethodForm.value : MethodForm → MethodSig
  | ⟨convention, genericCount, returnType, params⟩ =>
    ⟨convention.toNat.testBit 5, convention.toNat.testBit 6,
      if isGenericConvention convention then genericCount else 0,
      returnType.value, paramValues params⟩

-- =============================================================== bytes

/-- The code and the token of a mark. -/
def TypeMark.bytes : TypeMark → List UInt8
  | .required token => 0x1f :: tokenBytes token
  | .optional token => 0x20 :: tokenBytes token
  | .pinned => [0x45]

/-- The code that says whether a token is that of a value type. -/
def tokenCode (isValue : Bool) : UInt8 := if isValue then 0x11 else 0x12

/-- Items after their count. -/
def countedBytes (write : α → List UInt8) (items : List α) : List UInt8 :=
  compressedBytes items.length ++ items.flatMap write

mutual

/-- The bytes of a type: its code, and what the code asks for. -/
def TypeForm.bytes : TypeForm → List UInt8
  | .primitive p => [UInt8.ofNat p.code]
  | .named isValue token => tokenCode isValue :: tokenBytes token
  | .generic isValue token args =>
    0x15 :: tokenCode isValue :: (tokenBytes token ++ (compressedBytes args.length
      ++ typesBytes args))
  | .vector element => 0x1d :: element.bytes
  | .array element rank sizes lowerBounds =>
    0x14 :: (element.bytes ++ (compressedBytes rank ++ (countedBytes compressedBytes sizes
      ++ countedBytes signedBytes lowerBounds)))
  | .pointer target => 0x0f :: target.bytes
  | .byRef target => 0x10 :: target.bytes
  | .typeParam index => 0x13 :: compressedBytes index
  | .methodParam index => 0x1e :: compressedBytes index
  | .functionPointer signature => 0x1b :: signature.bytes
  | .marked mark inner => mark.bytes ++ inner.bytes

/-- The bytes of types, one after the other. -/
def typesBytes : List TypeForm → List UInt8
  | [] => []
  | t :: rest => t.bytes ++ typesBytes rest

/-- The bytes of a parameter. -/
def ParamForm.bytes : ParamForm → List UInt8
  | ⟨afterSentinel, type⟩ => if afterSentinel then 0x41 :: type.bytes else type.bytes

/-- The bytes of parameters, one after the other. -/
def paramsBytes : List ParamForm → List UInt8
  | [] => []
  | p :: rest => p.bytes ++ paramsBytes rest

/-- The bytes of a signature. -/
def MethodForm.bytes : MethodForm → List UInt8
  | ⟨convention, genericCount, returnType, params⟩ =>
    convention :: ((if isGenericConvention convention then compressedBytes genericCount else [])
      ++ (compressedBytes params.length ++ (returnType.bytes ++ paramsBytes params)))

end

-- =============================================================== depth

mutual

/-- How many levels of types there are, the type's own included. A mark is
a level, and a function pointer two. -/
def TypeForm.levels : TypeForm → Nat
  | .primitive _ | .named _ _ | .typeParam _ | .methodParam _ => 1
  | .generic _ _ args => typesLevels args + 1
  | .vector inner | .array inner _ _ _ | .pointer inner | .byRef inner | .marked _ inner =>
    inner.levels + 1
  | .functionPointer signature => signature.levels + 2

/-- The levels of the deepest of types. -/
def typesLevels : List TypeForm → Nat
  | [] => 0
  | t :: rest => max t.levels (typesLevels rest)

/-- The levels of the deepest of parameters. -/
def paramsLevels : List ParamForm → Nat
  | [] => 0
  | ⟨_, type⟩ :: rest => max type.levels (paramsLevels rest)

/-- The levels of the deepest type of a signature. -/
def MethodForm.levels : MethodForm → Nat
  | ⟨_, _, returnType, params⟩ => max returnType.levels (paramsLevels params)

end

-- ============================================================= fitting

/-- Whether the token of a mark names a type. -/
def TypeMark.Fits : TypeMark → Prop
  | .required token | .optional token => NamesType token
  | .pinned => True

mutual

/-- Whether all numbers in a type can be compressed, and all tokens name
types. -/
def TypeForm.Fits : TypeForm → Prop
  | .primitive _ => True
  | .named _ token => NamesType token
  | .generic _ token args => NamesType token ∧ args.length < compressedLimit ∧ TypesFit args
  | .vector inner | .pointer inner | .byRef inner => inner.Fits
  | .array element rank sizes lowerBounds =>
    element.Fits ∧ rank < compressedLimit
      ∧ (sizes.length < compressedLimit ∧ ∀ n ∈ sizes, n < compressedLimit)
      ∧ lowerBounds.length < compressedLimit ∧ ∀ i ∈ lowerBounds, IsAmong i compressedLimit
  | .typeParam index | .methodParam index => index < compressedLimit
  | .functionPointer signature => signature.Fits
  | .marked mark inner => mark.Fits ∧ inner.Fits

/-- Whether all types fit. -/
def TypesFit : List TypeForm → Prop
  | [] => True
  | t :: rest => t.Fits ∧ TypesFit rest

/-- Whether the types of all parameters fit. -/
def ParamsFit : List ParamForm → Prop
  | [] => True
  | ⟨_, type⟩ :: rest => type.Fits ∧ ParamsFit rest

/-- Whether all numbers in a signature can be compressed, and all tokens
name types. -/
def MethodForm.Fits : MethodForm → Prop
  | ⟨convention, genericCount, returnType, params⟩ =>
    (isGenericConvention convention = true → genericCount < compressedLimit)
      ∧ params.length < compressedLimit ∧ returnType.Fits ∧ ParamsFit params

end

-- ========================================================= one level

namespace Signature

variable {inner deeper type : Reader TypeSig} {bytes : List UInt8} {t : TypeSig}

/-- The levels that a type may have, told apart from those inside it. -/
theorem readType_succ (levels : Nat) :
    readType (levels + 1) = readTypeWith (readType levels) (readType (levels - 1)) := by
  cases levels <;> rfl

theorem ofCode?_code (p : Primitive) : Primitive.ofCode? p.code = some p := by
  cases p <;> rfl

theorem code_lt (p : Primitive) : p.code < 256 := by
  cases p <;> decide

theorem reads_primitive (p : Primitive) :
    Reads (readTypeWith inner deeper) [UInt8.ofNat p.code] (.primitive p) := by
  show Reads (readTypeWith inner deeper) ([UInt8.ofNat p.code] ++ []) _
  refine (reads_byte_ofNat (code_lt p)).bind ?_
  rw [ofCode?_code]
  exact .pure _

/-- A code for which the type inside it is all that is asked. -/
theorem reads_composite {code : UInt8} (make : TypeSig → TypeSig)
    (hcode : code = 0x0f ∧ make = .pointer ∨ code = 0x10 ∧ make = .byRef
      ∨ code = 0x1d ∧ make = .vector)
    (h : Reads inner bytes t) : Reads (readTypeWith inner deeper) (code :: bytes) (make t) := by
  rcases hcode with ⟨rfl, rfl⟩ | ⟨rfl, rfl⟩ | ⟨rfl, rfl⟩ <;>
    exact (reads_byte _).bind (h.bind_pure _)

theorem reads_named {isValue : Bool} {token : Token} (h : NamesType token) :
    Reads (readTypeWith inner deeper) (tokenCode isValue :: tokenBytes token) (.named token) := by
  cases isValue <;> exact (reads_byte _).bind ((reads_token h).bind_pure TypeSig.named)

theorem reads_typeParam {index : Nat} (h : index < compressedLimit) :
    Reads (readTypeWith inner deeper) (0x13 :: compressedBytes index) (.typeParam index) :=
  (reads_byte 0x13).bind ((reads_compressed h).bind_pure TypeSig.typeParam)

theorem reads_methodParam {index : Nat} (h : index < compressedLimit) :
    Reads (readTypeWith inner deeper) (0x1e :: compressedBytes index) (.methodParam index) :=
  (reads_byte 0x1e).bind ((reads_compressed h).bind_pure TypeSig.methodParam)

theorem reads_generic {isValue : Bool} {token : Token} {count : Nat} {ts : List TypeSig}
    (htoken : NamesType token) (hcount : count < compressedLimit)
    (h : Reads (Reader.times count inner) bytes ts) :
    Reads (readTypeWith inner deeper)
      (0x15 :: tokenCode isValue :: (tokenBytes token ++ (compressedBytes count ++ bytes)))
      (.generic token ts) := by
  refine (reads_byte 0x15).bind ((reads_byte (tokenCode isValue)).bind ?_)
  refine (reads_token htoken).bind ((reads_compressed hcount).bind ?_)
  exact h.bind_pure (TypeSig.generic token)

theorem reads_numbers {write : α → List UInt8} {value : α → Nat} {items : List α}
    (hcount : items.length < compressedLimit)
    (h : ∀ x ∈ items, Reads Reader.compressed (write x) (value x)) :
    Reads readNumbers (countedBytes write items) (items.map value) :=
  (reads_compressed hcount).bind (.times h)

theorem reads_array {rank : Nat} {sizes : List Nat} {lowerBounds : List Int}
    (h : Reads inner bytes t) (hrank : rank < compressedLimit)
    (hsizes : sizes.length < compressedLimit ∧ ∀ n ∈ sizes, n < compressedLimit)
    (hbounds : lowerBounds.length < compressedLimit
      ∧ ∀ i ∈ lowerBounds, IsAmong i compressedLimit) :
    Reads (readTypeWith inner deeper)
      (0x14 :: (bytes ++ (compressedBytes rank ++ (countedBytes compressedBytes sizes
        ++ countedBytes signedBytes lowerBounds)))) (.array t rank) := by
  have hread : Reads readNumbers (countedBytes compressedBytes sizes) (sizes.map id) :=
    reads_numbers hsizes.1 fun n hn => reads_compressed (hsizes.2 n hn)
  have hskip := reads_numbers hbounds.1 fun i hi => reads_signed (hbounds.2 i hi)
  refine (reads_byte 0x14).bind (h.bind ((reads_compressed hrank).bind ?_))
  exact hread.bind (hskip.bind_pure fun _ => TypeSig.array t rank)

theorem reads_functionPointer {sig : MethodSig} (h : Reads (readMethodWith deeper) bytes sig) :
    Reads (readTypeWith inner deeper) (0x1b :: bytes) .functionPointer :=
  (reads_byte 0x1b).bind (h.bind_pure fun _ => TypeSig.functionPointer)

theorem reads_marked {mark : TypeMark} (hmark : mark.Fits) (h : Reads inner bytes t) :
    Reads (readTypeWith inner deeper) (mark.bytes ++ bytes) t := by
  cases mark with
  | required token => exact (reads_byte 0x1f).bind ((reads_token hmark).bind h)
  | optional token => exact (reads_byte 0x20).bind ((reads_token hmark).bind h)
  | pinned => exact (reads_byte 0x45).bind h

-- ========================================================== parameters

/-- No type starts with the sentinel. -/
theorem head_typeForm (form : TypeForm) :
    ∃ code rest, form.bytes = code :: rest ∧ code ≠ 0x41 := by
  cases form with
  | primitive p =>
    refine ⟨_, _, rfl, ?_⟩
    cases p <;> decide
  | named isValue token => cases isValue <;> exact ⟨_, _, rfl, by decide⟩
  | marked mark inner => cases mark <;> exact ⟨_, _, rfl, by decide⟩
  | generic isValue token args => exact ⟨_, _, rfl, by decide⟩
  | vector element => exact ⟨_, _, rfl, by decide⟩
  | array element rank sizes lowerBounds => exact ⟨_, _, rfl, by decide⟩
  | pointer target => exact ⟨_, _, rfl, by decide⟩
  | byRef target => exact ⟨_, _, rfl, by decide⟩
  | typeParam index => exact ⟨_, _, rfl, by decide⟩
  | methodParam index => exact ⟨_, _, rfl, by decide⟩
  | functionPointer signature => exact ⟨_, _, rfl, by decide⟩

/-- What stands before a parameter is the sentinel or its type. -/
theorem readParam_cons (code : UInt8) (rest : List UInt8) :
    readParam type (code :: rest)
      = if code.toNat = sentinel then type rest else type (code :: rest) := by
  unfold readParam
  show (if code.toNat = sentinel then _ else _ : Reader TypeSig) _ = _
  split <;> rfl

theorem reads_param {form : TypeForm} (h : Reads type form.bytes t) (afterSentinel : Bool) :
    Reads (readParam type) (ParamForm.mk afterSentinel form).bytes t := by
  intro rest
  rw [ParamForm.bytes]
  cases afterSentinel with
  | true => exact h rest
  | false =>
    obtain ⟨code, more, hbytes, hcode⟩ := head_typeForm form
    have hcode : code.toNat ≠ sentinel := fun heq => hcode (UInt8.toNat_inj.mp heq)
    have htype := h rest
    rw [hbytes, List.cons_append] at htype
    rw [if_neg (by simp), hbytes, List.cons_append, readParam_cons, if_neg hcode]
    exact htype

theorem reads_method {convention : UInt8} {genericCount : Nat} {returnType : TypeForm}
    {params : List ParamForm} {ts : List TypeSig} (hreturn : Reads type returnType.bytes t)
    (hparams : Reads (Reader.times params.length (readParam type)) (paramsBytes params) ts)
    (hgeneric : isGenericConvention convention = true → genericCount < compressedLimit)
    (hcount : params.length < compressedLimit) :
    Reads (readMethodWith type) (MethodForm.mk convention genericCount returnType params).bytes
      ⟨convention.toNat.testBit 5, convention.toNat.testBit 6,
        if isGenericConvention convention then genericCount else 0, t, ts⟩ := by
  have hrest : ∀ count, Reads (do
      let paramCount ← Reader.compressed
      let returnType ← type
      let params ← Reader.times paramCount (readParam type)
      return (⟨convention.toNat.testBit 5, convention.toNat.testBit 6, count, returnType,
        params⟩ : MethodSig))
      (compressedBytes params.length ++ (returnType.bytes ++ paramsBytes params))
      ⟨convention.toNat.testBit 5, convention.toNat.testBit 6, count, t, ts⟩ := fun count =>
    (reads_compressed hcount).bind (hreturn.bind (hparams.bind_pure fun params =>
      (⟨convention.toNat.testBit 5, convention.toNat.testBit 6, count, t, params⟩ : MethodSig)))
  rw [MethodForm.bytes]
  refine (reads_byte convention).bind ?_
  by_cases hbit : isGenericConvention convention = true
  · rw [if_pos hbit, if_pos hbit]
    show Reads (if isGenericConvention convention then _ else _) _ _
    rw [if_pos hbit]
    exact (reads_compressed (hgeneric hbit)).bind (hrest genericCount)
  · rw [if_neg hbit, if_neg hbit]
    show Reads (if isGenericConvention convention then _ else _) _ _
    rw [if_neg hbit]
    exact (Reads.pure 0).bind (hrest 0)

end Signature

-- ========================================================== all levels

section Levels

open Signature

theorem levels_pos (form : TypeForm) : 0 < form.levels := by
  cases form <;> rw [TypeForm.levels] <;> omega

mutual

/-- A type is read back if it may have as many levels as it has. -/
theorem reads_typeForm : ∀ (form : TypeForm) (levels : Nat), form.Fits → form.levels ≤ levels + 1 →
    Reads (readType (levels + 1)) form.bytes form.value
  | .primitive p, levels, _, _ => by
    rw [readType_succ, TypeForm.bytes, TypeForm.value]
    exact reads_primitive p
  | .named isValue token, levels, hfits, _ => by
    rw [TypeForm.Fits] at hfits
    rw [readType_succ, TypeForm.bytes, TypeForm.value]
    exact reads_named hfits
  | .typeParam index, levels, hfits, _ => by
    rw [TypeForm.Fits] at hfits
    rw [readType_succ, TypeForm.bytes, TypeForm.value]
    exact reads_typeParam hfits
  | .methodParam index, levels, hfits, _ => by
    rw [TypeForm.Fits] at hfits
    rw [readType_succ, TypeForm.bytes, TypeForm.value]
    exact reads_methodParam hfits
  | .generic isValue token args, levels, hfits, hlevels => by
    rw [TypeForm.Fits] at hfits
    rw [TypeForm.levels] at hlevels
    rw [readType_succ, TypeForm.bytes, TypeForm.value]
    exact reads_generic hfits.1 hfits.2.1 (reads_typeForms args levels hfits.2.2 (by omega))
  | .vector inner, levels, hfits, hlevels | .pointer inner, levels, hfits, hlevels
  | .byRef inner, levels, hfits, hlevels => by
    rw [TypeForm.Fits] at hfits
    rw [TypeForm.levels] at hlevels
    rw [readType_succ, TypeForm.bytes, TypeForm.value]
    exact reads_composite _ (by simp) (reads_inside inner levels hfits (by omega))
  | .array element rank sizes lowerBounds, levels, hfits, hlevels => by
    rw [TypeForm.Fits] at hfits
    rw [TypeForm.levels] at hlevels
    obtain ⟨helement, hrank, hsizes, hbounds⟩ := hfits
    rw [readType_succ, TypeForm.bytes, TypeForm.value]
    exact reads_array (reads_inside element levels helement (by omega)) hrank hsizes hbounds
  | .functionPointer signature, levels, hfits, hlevels => by
    rw [TypeForm.Fits] at hfits
    rw [TypeForm.levels] at hlevels
    rw [readType_succ, TypeForm.bytes, TypeForm.value]
    exact reads_functionPointer (reads_methodForm signature (levels - 1) hfits (by omega))
  | .marked mark inner, levels, hfits, hlevels => by
    rw [TypeForm.Fits] at hfits
    rw [TypeForm.levels] at hlevels
    rw [readType_succ, TypeForm.bytes, TypeForm.value]
    exact reads_marked hfits.1 (reads_inside inner levels hfits.2 (by omega))

/-- A type inside another: it has a level, so there must be one. -/
theorem reads_inside : ∀ (form : TypeForm) (levels : Nat), form.Fits → form.levels ≤ levels →
    Reads (readType levels) form.bytes form.value
  | form, 0, _, hlevels => absurd (levels_pos form) (by omega)
  | form, levels + 1, hfits, hlevels => reads_typeForm form levels hfits hlevels

theorem reads_typeForms : ∀ (forms : List TypeForm) (levels : Nat), TypesFit forms →
    typesLevels forms ≤ levels →
    Reads (Reader.times forms.length (readType levels)) (typesBytes forms) (typeValues forms)
  | [], _, _, _ => .pure []
  | t :: rest, levels, hfits, hlevels => by
    rw [TypesFit] at hfits
    rw [typesLevels] at hlevels
    rw [typesBytes, typeValues]
    have hrest := reads_typeForms rest levels hfits.2 (by omega)
    exact (reads_inside t levels hfits.1 (by omega)).bind
      (hrest.bind_pure fun ts => t.value :: ts)

theorem reads_paramForms : ∀ (forms : List ParamForm) (levels : Nat), ParamsFit forms →
    paramsLevels forms ≤ levels →
    Reads (Reader.times forms.length (readParam (readType levels))) (paramsBytes forms)
      (paramValues forms)
  | [], _, _, _ => .pure []
  | ⟨afterSentinel, t⟩ :: rest, levels, hfits, hlevels => by
    rw [ParamsFit] at hfits
    rw [paramsLevels] at hlevels
    rw [paramsBytes, paramValues]
    have hfirst := reads_param (reads_inside t levels hfits.1 (by omega)) afterSentinel
    have hrest := reads_paramForms rest levels hfits.2 (by omega)
    exact hfirst.bind (hrest.bind_pure fun ts => t.value :: ts)

/-- A signature is read back if its types may have as many levels as they
have. -/
theorem reads_methodForm : ∀ (form : MethodForm) (levels : Nat), form.Fits → form.levels ≤ levels →
    Reads (readMethodWith (readType levels)) form.bytes form.value
  | ⟨convention, genericCount, returnType, params⟩, levels, hfits, hlevels => by
    rw [MethodForm.Fits] at hfits
    rw [MethodForm.levels] at hlevels
    obtain ⟨hgeneric, hcount, hreturn, hparams⟩ := hfits
    rw [MethodForm.value]
    exact reads_method (reads_inside returnType levels hreturn (by omega))
      (reads_paramForms params levels hparams (by omega)) hgeneric hcount

end

end Levels

-- ======================================================= all signatures

mutual

/-- Whether all numbers in a type can be compressed, and all tokens name
types. -/
def TypeSig.Fits : TypeSig → Prop
  | .primitive _ | .functionPointer => True
  | .named token => NamesType token
  | .generic token args => NamesType token ∧ args.length < compressedLimit ∧ AllFit args
  | .vector inner | .pointer inner | .byRef inner => inner.Fits
  | .array element rank => element.Fits ∧ rank < compressedLimit
  | .typeParam index | .methodParam index => index < compressedLimit

/-- Whether all types fit. -/
def TypeSig.AllFit : List TypeSig → Prop
  | [] => True
  | t :: rest => t.Fits ∧ AllFit rest

end

mutual

/-- The least number of levels that a type can be written with. -/
def TypeSig.levels : TypeSig → Nat
  | .primitive _ | .named _ | .typeParam _ | .methodParam _ => 1
  | .generic _ args => allLevels args + 1
  | .vector inner | .array inner _ | .pointer inner | .byRef inner => inner.levels + 1
  | .functionPointer => 3

/-- The levels of the deepest of types. -/
def TypeSig.allLevels : List TypeSig → Nat
  | [] => 0
  | t :: rest => max t.levels (allLevels rest)

end

/-- Whether a signature can be written: its numbers can be compressed, its
tokens name types, and its types do not stand too deep. -/
structure MethodSig.Fits (sig : MethodSig) : Prop where
  genericCount : sig.genericCount < compressedLimit
  paramCount : sig.params.length < compressedLimit
  returnType : sig.returnType.Fits
  params : TypeSig.AllFit sig.params
  levels : TypeSig.allLevels (sig.returnType :: sig.params) ≤ Signature.depthLimit

/-- A form writes a signature if it has its value, fits, and has no more
levels than are read. -/
structure MethodForm.Writes (form : MethodForm) (sig : MethodSig) : Prop where
  value : form.value = sig
  fits : form.Fits
  levels : form.levels ≤ Signature.depthLimit

mutual

/-- A type without marks, sizes and lower bounds; a function pointer takes
and gives nothing. -/
def TypeSig.plain : TypeSig → TypeForm
  | .primitive p => .primitive p
  | .named token => .named false token
  | .generic token args => .generic false token (plainAll args)
  | .vector element => .vector element.plain
  | .array element rank => .array element.plain rank [] []
  | .pointer target => .pointer target.plain
  | .byRef target => .byRef target.plain
  | .typeParam index => .typeParam index
  | .methodParam index => .methodParam index
  | .functionPointer => .functionPointer (.mk 0 0 (.primitive .void) [])

/-- Types without marks, sizes and lower bounds. -/
def TypeSig.plainAll : List TypeSig → List TypeForm
  | [] => []
  | t :: rest => t.plain :: plainAll rest

end

theorem TypeSig.length_plainAll (ts : List TypeSig) : (plainAll ts).length = ts.length := by
  induction ts with
  | nil => rfl
  | cons t rest ih => rw [plainAll, List.length_cons, List.length_cons, ih]

mutual

theorem TypeSig.plain_writes : ∀ t : TypeSig,
    t.plain.value = t ∧ (t.Fits → t.plain.Fits) ∧ t.plain.levels = t.levels
  | .primitive _ | .named _ | .typeParam _ | .methodParam _ => ⟨rfl, id, rfl⟩
  | .functionPointer => ⟨rfl, fun _ => by
      simp [plain, TypeForm.Fits, MethodForm.Fits, ParamsFit, isGenericConvention,
        compressedLimit], rfl⟩
  | .generic token args => by
    obtain ⟨hvalue, hfits, hlevels⟩ := plainAll_writes args
    rw [plain, TypeForm.value, TypeForm.levels, levels, TypeForm.Fits, Fits, hvalue, hlevels,
      length_plainAll]
    exact ⟨rfl, fun h => ⟨h.1, h.2.1, hfits h.2.2⟩, rfl⟩
  | .array element rank => by
    obtain ⟨hvalue, hfits, hlevels⟩ := plain_writes element
    rw [plain, TypeForm.value, TypeForm.levels, levels, TypeForm.Fits, Fits, hvalue, hlevels]
    refine ⟨rfl, fun h => ⟨hfits h.1, h.2, ?_⟩, rfl⟩
    simp [compressedLimit]
  | .vector inner | .pointer inner | .byRef inner => by
    obtain ⟨hvalue, hfits, hlevels⟩ := plain_writes inner
    rw [plain, TypeForm.value, TypeForm.levels, levels, TypeForm.Fits, Fits, hvalue, hlevels]
    exact ⟨rfl, hfits, rfl⟩

theorem TypeSig.plainAll_writes : ∀ ts : List TypeSig,
    typeValues (plainAll ts) = ts ∧ (AllFit ts → TypesFit (plainAll ts))
      ∧ typesLevels (plainAll ts) = allLevels ts
  | [] => ⟨rfl, id, rfl⟩
  | t :: rest => by
    obtain ⟨hvalue, hfits, hlevels⟩ := plain_writes t
    obtain ⟨hvalues, hallFit, hallLevels⟩ := plainAll_writes rest
    rw [plainAll, typeValues, typesLevels, allLevels, TypesFit, AllFit, hvalue, hvalues, hlevels,
      hallLevels]
    exact ⟨rfl, fun h => ⟨hfits h.1, hallFit h.2⟩, rfl⟩

end

theorem paramForms_of_types (forms : List TypeForm) :
    paramValues (forms.map (.mk false)) = typeValues forms
      ∧ (TypesFit forms → ParamsFit (forms.map (.mk false)))
      ∧ paramsLevels (forms.map (.mk false)) = typesLevels forms := by
  induction forms with
  | nil => exact ⟨rfl, id, rfl⟩
  | cons t rest ih =>
    obtain ⟨hvalues, hfit, hlevels⟩ := ih
    rw [List.map_cons, paramValues, typeValues, paramsLevels, typesLevels, ParamsFit, TypesFit,
      hvalues, hlevels]
    exact ⟨rfl, fun h => ⟨h.1, hfit h.2⟩, rfl⟩

/-- The first byte of a signature. -/
def conventionByte (hasThis explicitThis generic : Bool) : UInt8 :=
  (if generic then 0x10 else 0) ||| (if hasThis then 0x20 else 0)
    ||| (if explicitThis then 0x40 else 0)

theorem conventionByte_bits (hasThis explicitThis generic : Bool) :
    (conventionByte hasThis explicitThis generic).toNat.testBit 5 = hasThis
      ∧ (conventionByte hasThis explicitThis generic).toNat.testBit 6 = explicitThis
      ∧ isGenericConvention (conventionByte hasThis explicitThis generic) = generic := by
  cases hasThis <;> cases explicitThis <;> cases generic <;> decide

/-- A signature whose types are plain. The number of type parameters is
left out if there are none. -/
def MethodSig.plain (sig : MethodSig) : MethodForm :=
  .mk (conventionByte sig.hasThis sig.explicitThis (sig.genericCount ≠ 0)) sig.genericCount
    sig.returnType.plain ((TypeSig.plainAll sig.params).map (.mk false))

/-- Every signature that fits can be written. -/
theorem MethodSig.plain_writes {sig : MethodSig} (h : sig.Fits) : sig.plain.Writes sig := by
  obtain ⟨hthis, hexplicit, hgeneric⟩ :=
    conventionByte_bits sig.hasThis sig.explicitThis (sig.genericCount ≠ 0)
  obtain ⟨hvalue, hfits, hlevels⟩ := sig.returnType.plain_writes
  obtain ⟨hvalues, hallFit, hallLevels⟩ := TypeSig.plainAll_writes sig.params
  obtain ⟨hparamValues, hparamsFit, hparamsLevels⟩ :=
    paramForms_of_types (TypeSig.plainAll sig.params)
  constructor
  · have hcount : (if decide (sig.genericCount ≠ 0) = true then sig.genericCount else 0)
        = sig.genericCount := by
      by_cases hzero : sig.genericCount = 0
      · rw [hzero, ite_self]
      · rw [if_pos (decide_eq_true hzero)]
    rw [plain, MethodForm.value, hthis, hexplicit, hgeneric, hcount, hvalue, hparamValues, hvalues]
  · rw [plain, MethodForm.Fits, List.length_map, TypeSig.length_plainAll]
    exact ⟨fun _ => h.genericCount, h.paramCount, hfits h.returnType,
      hparamsFit (hallFit h.params)⟩
  · rw [plain, MethodForm.levels, hlevels, hparamsLevels, hallLevels, ← TypeSig.allLevels]
    exact h.levels

-- ========================================================= reading back

/-- Every signature that fits can be written, and whatever way it is
written and whatever stands behind it, it is read back. -/
theorem signature_read_back (sig : MethodSig) :
    (sig.Fits → ∃ form : MethodForm, form.Writes sig)
      ∧ ∀ form : MethodForm, form.Writes sig → ∀ trailing : List UInt8,
        Signature.ofBytes (form.bytes ++ trailing) = .ok sig := by
  refine ⟨fun h => ⟨sig.plain, sig.plain_writes h⟩, fun form hform trailing => ?_⟩
  have hread := reads_methodForm form Signature.depthLimit hform.fits hform.levels
  rw [Signature.ofBytes, hread.value trailing, hform.value]

/-- A type under so many pointers. -/
def underPointers : Nat → TypeForm → TypeForm
  | 0, t => t
  | n + 1, t => .pointer (underPointers n t)

theorem fits_underPointers (n : Nat) (t : TypeForm) : (underPointers n t).Fits ↔ t.Fits := by
  induction n with
  | zero => rfl
  | succ n ih => rw [underPointers, TypeForm.Fits, ih]

/-- A signature with marks, a sentinel, an array of given bounds, and a
function pointer as deep as it may stand. -/
def markedForm : MethodForm :=
  let pointer : MethodForm := .mk 0x25 0 (.primitive .void)
    [.mk false (.typeParam 3), .mk true (.marked (.required ⟨0x01000005⟩) (.primitive .string))]
  .mk 0x30 200 (.generic true ⟨0x02ffffff⟩ [.methodParam 0x4000, .vector (.primitive .int32)])
    [.mk false (.marked (.optional ⟨0x1b000007⟩) (.marked .pinned
      (.array (.named false ⟨0x01000009⟩) 2 [3, 70000] [-1, -8192, 64]))),
    .mk true (underPointers 60 (.functionPointer pointer))]

/-- The signature with all that may stand in it is read back, at the
greatest depth that is read. -/
theorem signature_read_back_marked :
    markedForm.Writes markedForm.value ∧ markedForm.levels = Signature.depthLimit
      ∧ Signature.ofBytes (markedForm.bytes ++ [0x45, 0xff]) = .ok markedForm.value := by
  have hlevels : markedForm.levels = Signature.depthLimit := by decide
  have hwrites : markedForm.Writes markedForm.value := by
    refine ⟨rfl, ?_, Nat.le_of_eq hlevels⟩
    simp [markedForm, MethodForm.Fits, TypeForm.Fits, TypesFit, ParamsFit, TypeMark.Fits,
      isGenericConvention, fits_underPointers]
    decide
  exact ⟨hwrites, hlevels, (signature_read_back markedForm.value).2 markedForm hwrites _⟩

end ClrListing.Metadata
