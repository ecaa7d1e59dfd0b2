/-
The forms of the instructions whose code is one byte: moves, arithmetic on
whole numbers and on real numbers that are held on a stack, pushes and
pops, strings, calls, jumps and returns.
-/
import ClrListing.Native.Form.Basic

namespace ClrListing.Native

open Form (of byDigit)
open Slot

-- ============================================================= real slots

/-- The top of the stack. -/
def top : Slot := .given .top 0

/-- The register of the stack that the byte after the code names. -/
def stacked : Slot := .direct .stacked

-- ============================================================= real forms

/-- The arithmetic that three bits choose. -/
def realArithmetic : List String :=
  ["fadd", "fmul", "fcom", "fcomp", "fsub", "fsubr", "fdiv", "fdivr"]

/-- Arithmetic with a number in memory, whole or real. -/
def realMemoryForms : List Form :=
  let forms (code : Nat) (kind : Kind) (names : List String) : List Form :=
    byDigit names (of code · [top, .sized kind] [.memory])
  let whole := realArithmetic.map fun name => "fi" ++ (name.drop 1).copy
  forms 0xd8 .double realArithmetic ++ forms 0xda .double whole ++
    forms 0xdc .quad realArithmetic ++ forms 0xde .word whole

/-- Moves between the stack and memory. -/
def realMoveForms : List Form :=
  let load (code digit : Nat) (name : String) (kind : Kind) : Form :=
    of code name [top, .sized kind] [.digit digit, .memory]
  let store (code digit : Nat) (name : String) (kind : Kind) : Form :=
    of code name [.sized kind, top] [.digit digit, .memory]
  let state (code digit : Nat) (name : String) : Form := of code name [ev] [.digit digit, .memory]
  [load 0xd9 0 "fld" .double, store 0xd9 2 "fst" .double, store 0xd9 3 "fstp" .double,
    (state 0xd9 4 "fldenv").noted [.narrowed], state 0xd9 5 "fldcw",
    (state 0xd9 6 "fnstenv").noted [.narrowed], state 0xd9 7 "fnstcw",
    load 0xdb 0 "fild" .double, store 0xdb 1 "fisttp" .double, store 0xdb 2 "fist" .double,
    store 0xdb 3 "fistp" .double, load 0xdb 5 "fld" .stacked, store 0xdb 7 "fstp" .stacked,
    load 0xdd 0 "fld" .quad, store 0xdd 1 "fisttp" .quad, store 0xdd 2 "fst" .quad,
    store 0xdd 3 "fstp" .quad, (state 0xdd 4 "frstor").noted [.narrowed],
    (state 0xdd 6 "fnsave").noted [.narrowed], state 0xdd 7 "fnstsw",
    load 0xdf 0 "fild" .word, store 0xdf 1 "fisttp" .word, store 0xdf 2 "fist" .word,
    store 0xdf 3 "fistp" .word, of 0xdf "fbld" [top, ev] [.digit 4, .memory],
    load 0xdf 5 "fild" .quad, of 0xdf "fbstp" [ev, top] [.digit 6, .memory],
    store 0xdf 7 "fistp" .quad]

/-- Instructions on the registers of the stack. -/
def realRegisterForms : List Form :=
  let toTop (code digit : Nat) (name : String) : Form :=
    of code name [top, stacked] [.digit digit, .direct]
  let fromTop (code digit : Nat) (name : String) : Form :=
    of code name [stacked, top] [.digit digit, .direct]
  let single (code digit : Nat) (name : String) : Form :=
    of code name [stacked] [.digit digit, .direct]
  realArithmetic.mapIdx (fun i name => toTop 0xd8 i name) ++
    [toTop 0xd9 0 "fld", toTop 0xd9 1 "fxch", fromTop 0xd9 3 "fstpnce",
      toTop 0xda 0 "fcmovb", toTop 0xda 1 "fcmove", toTop 0xda 2 "fcmovbe",
      toTop 0xda 3 "fcmovu", toTop 0xdb 0 "fcmovnb", toTop 0xdb 1 "fcmovne",
      toTop 0xdb 2 "fcmovnbe", toTop 0xdb 3 "fcmovnu", toTop 0xdb 5 "fucomi",
      toTop 0xdb 6 "fcomi", fromTop 0xdc 0 "fadd", fromTop 0xdc 1 "fmul", toTop 0xdc 2 "fcom",
      toTop 0xdc 3 "fcomp", fromTop 0xdc 4 "fsubr", fromTop 0xdc 5 "fsub",
      fromTop 0xdc 6 "fdivr", fromTop 0xdc 7 "fdiv", single 0xdd 0 "ffree",
      toTop 0xdd 1 "fxch", fromTop 0xdd 2 "fst", fromTop 0xdd 3 "fstp", toTop 0xdd 4 "fucom",
      toTop 0xdd 5 "fucomp", fromTop 0xde 0 "faddp", fromTop 0xde 1 "fmulp",
      toTop 0xde 2 "fcomp", fromTop 0xde 4 "fsubrp", fromTop 0xde 5 "fsubp",
      fromTop 0xde 6 "fdivrp", fromTop 0xde 7 "fdivp", single 0xdf 0 "ffreep",
      toTop 0xdf 1 "fxch", fromTop 0xdf 2 "fstp", fromTop 0xdf 3 "fstp",
      toTop 0xdf 5 "fucomip", toTop 0xdf 6 "fcomip"]

/-- Instructions that the byte after the code names. -/
def realNamedForms : List Form :=
  let bare (code : Nat) (entry : Nat × String) : Form := of code entry.2 [] [.next entry.1]
  ([(0xd0, "fnop"), (0xe0, "fchs"), (0xe1, "fabs"), (0xe4, "ftst"), (0xe5, "fxam"),
    (0xe8, "fld1"), (0xe9, "fldl2t"), (0xea, "fldl2e"), (0xeb, "fldpi"), (0xec, "fldlg2"),
    (0xed, "fldln2"), (0xee, "fldz"), (0xf0, "f2xm1"), (0xf1, "fyl2x"), (0xf2, "fptan"),
    (0xf3, "fpatan"), (0xf4, "fxtract"), (0xf5, "fprem1"), (0xf6, "fdecstp"),
    (0xf7, "fincstp"), (0xf8, "fprem"), (0xf9, "fyl2xp1"), (0xfa, "fsqrt"),
    (0xfb, "fsincos"), (0xfc, "frndint"), (0xfd, "fscale"), (0xfe, "fsin"),
    (0xff, "fcos")].map (bare 0xd9)) ++
    [bare 0xda (0xe9, "fucompp"), bare 0xdb (0xe0, "fneni"), bare 0xdb (0xe1, "fndisi"),
      bare 0xdb (0xe2, "fnclex"), bare 0xdb (0xe3, "fninit"), bare 0xdb (0xe4, "fnsetpm"),
      bare 0xde (0xd9, "fcompp"),
      of 0xdf "fnstsw" [.given .word 0] [.next 0xe0]]

/-- The forms of the instructions on real numbers. -/
def realForms : List Form :=
  realMemoryForms ++ realMoveForms ++ realRegisterForms ++ realNamedForms

-- ================================================================= names

/-- The arithmetic that three bits choose. -/
def arithmetic : List String := ["add", "or", "adc", "sbb", "and", "sub", "xor", "cmp"]

/-- The shifts that three bits choose. -/
def shifts : List String := ["rol", "ror", "rcl", "rcr", "shl", "shr", "shl", "sar"]

/-- The conditions that four bits choose. -/
def conditions : List String :=
  ["o", "no", "b", "ae", "e", "ne", "be", "a", "s", "ns", "p", "np", "l", "ge", "le", "g"]

-- ============================================================= arithmetic

/-- The forms of arithmetic: with the second operand from a register, from
the target, from an immediate, which may have one byte. -/
def arithmeticForms : List Form :=
  (arithmetic.mapIdx fun i name =>
    let notes := if name = "cmp" then [] else [Note.elides]
    [of (8 * i) name [eb, gb] [], of (8 * i + 1) name [ev, gv] [],
      of (8 * i + 2) name [gb, eb] [], of (8 * i + 3) name [gv, ev] [],
      of (8 * i + 4) name [.accumulator .byte, ib] [],
      of (8 * i + 5) name [.accumulator .operand, iv] [],
      of 0x80 name [.sized .byte, ib] [.digit i],
      of 0x81 name [.sized .operand, iv] [.digit i],
      of 0x82 name [.sized .byte, ib] [.digit i, .compact],
      of 0x83 name [.sized .operand, .short .operand] [.digit i]].map (Form.noted notes)).flatten

/-- The shifts, by an immediate, by one and by a register. -/
def shiftForms : List Form :=
  let counts : List (Nat × Slot) := [(0xc0, ib), (0xd0, .constant 1), (0xd2, .given .byte 1)]
  counts.flatMap fun (code, count) =>
    byDigit shifts (of code · [.sized .byte, count] []) ++
      byDigit shifts (of (code + 1) · [.sized .operand, count] [])

/-- Arithmetic with one operand. -/
def unaryForms : List Form :=
  let forms (code : Nat) (kind : Kind) : List Form :=
    byDigit ["test", "test"] (of code · [.sized kind, .immediate kind] []) ++
      [(of code "not" [.sized kind] [.digit 2]).noted [.elides],
        (of code "neg" [.sized kind] [.digit 3]).noted [.elides],
        of code "mul" [.sized kind] [.digit 4], of code "imul" [.sized kind] [.digit 5],
        of code "div" [.sized kind] [.digit 6], of code "idiv" [.sized kind] [.digit 7]]
  let steps (code : Nat) (kind : Kind) : List Form :=
    (byDigit ["inc", "dec"] (of code · [.sized kind] [])).map (Form.noted [.elides])
  forms 0xf6 .byte ++ forms 0xf7 .operand ++ steps 0xfe .byte ++ steps 0xff .operand ++
    (List.range 8).flatMap fun i =>
      [of (0x40 + i) "inc" [zv] [.compact], of (0x48 + i) "dec" [zv] [.compact]]

-- ================================================================== moves

/-- Moves between registers, memory and immediates. -/
def moveForms : List Form :=
  [of 0x84 "test" [eb, gb] [], of 0x85 "test" [ev, gv] [],
    (of 0x86 "xchg" [eb, gb] []).noted [.exchanges],
    (of 0x87 "xchg" [ev, gv] []).noted [.exchanges],
    (of 0x88 "mov" [eb, gb] []).noted [.releases], (of 0x89 "mov" [ev, gv] []).noted [.releases],
    of 0x8a "mov" [gb, eb] [], of 0x8b "mov" [gv, ev] [],
    of 0x8c "mov" [ev, .register .segment] [],
    (of 0x8d "lea" [gv, ev] [.memory]).noted [.unread],
    of 0x90 "pause" [] [.mark .equal], of 0x90 "nop" [] [.plain, .operand .double],
    (of 0xa0 "mov" [.accumulator .byte, .fixed] []).noted [.addressed],
    (of 0xa1 "mov" [.accumulator .operand, .fixed] []).noted [.addressed],
    (of 0xa2 "mov" [.fixed, .accumulator .byte] []).noted [.addressed],
    (of 0xa3 "mov" [.fixed, .accumulator .operand] []).noted [.addressed],
    of 0xa8 "test" [.accumulator .byte, ib] [],
    of 0xa9 "test" [.accumulator .operand, iv] [],
    of 0xc4 "les" [gv, ev] [.memory], of 0xc5 "lds" [gv, ev] [.memory],
    (of 0xc6 "mov" [.sized .byte, ib] [.digit 0]).noted [.releases],
    (of 0xc7 "mov" [.sized .operand, iv] [.digit 0]).noted [.releases],
    of 0x62 "bound" [gv, ev] [.compact, .memory],
    of 0x63 "movsxd" [gv, .target .small] [.long], of 0x63 "arpl" [ew, gw] [],
    (of 0x69 "imul" [gv, ev, iv] []).noted [.shortened],
    (of 0x6b "imul" [gv, ev, .short .operand] []).noted [.shortened]] ++
    [0, 2, 3, 4, 5].map (fun i => of 0x8e "mov" [.register .segment, ew] [.digit i]) ++
    (List.range 8).flatMap fun i =>
      [of (0x90 + i) "xchg" [zv, .accumulator .operand] [],
        of (0xb0 + i) "mov" [zb, ib] [], of (0xb8 + i) "mov" [zv, .whole .operand] []]

/-- Pushes and pops. -/
def stackForms : List Form :=
  let segment (code number : Nat) (name : String) : Form :=
    (of code name [.given .segment number] [.compact]).noted [.narrowed]
  [segment 0x06 0 "push", segment 0x07 0 "pop", segment 0x0e 1 "push", segment 0x16 2 "push",
    segment 0x17 2 "pop", segment 0x1e 3 "push", segment 0x1f 3 "pop",
    of 0x60 "pusha" [] [.compact, .operand .word], of 0x60 "pushad" [] [.compact],
    of 0x61 "popa" [] [.compact, .operand .word], of 0x61 "popad" [] [.compact],
    (of 0x68 "push" [.immediate .stack] []).noted [.narrowed],
    (of 0x6a "push" [.short .stack] []).noted [.narrowed],
    of 0x8f "pop" [.sized .stack] [.digit 0],
    of 0x9c "pushf" [] [.operand .word], of 0x9c "pushfq" [] [.long], of 0x9c "pushfd" [] [],
    of 0x9d "popf" [] [.operand .word], of 0x9d "popfq" [] [.long], of 0x9d "popfd" [] [],
    (of 0xc8 "enter" [iw, ib] []).noted [.narrowed], (of 0xc9 "leave" [] []).noted [.narrowed],
    of 0xff "push" [.sized .stack] [.digit 6]] ++
    (List.range 8).flatMap fun i => [of (0x50 + i) "push" [zs] [], of (0x58 + i) "pop" [zs] []]

-- ================================================================ strings

/-- Instructions on strings of bytes, words and larger numbers, in the
order that two bits of a code and the width of operands choose. -/
def stringForms : List Form :=
  let sizes (code : Nat) (stem : String) (slots : List Slot) (note : Note) : List Form :=
    [of code (stem ++ "b") slots [], of (code + 1) (stem ++ "w") slots [.operand .word],
      of (code + 1) (stem ++ "d") slots [.operand .double],
      of (code + 1) (stem ++ "q") slots []].map (Form.noted [note])
  let devices (code : Nat) (stem : String) (slot : Slot) : List Form :=
    [of code (stem ++ "b") [slot] [], of (code + 1) (stem ++ "w") [slot] [.operand .word],
      of (code + 1) (stem ++ "d") [slot] []].map (Form.noted [.repeated])
  devices 0x6c "ins" .destination ++ devices 0x6e "outs" .source ++
    sizes 0xa4 "movs" [.destination, .source] .repeated ++
    sizes 0xa6 "cmps" [.source, .destination] .compared ++
    sizes 0xaa "stos" [.destination] .repeated ++ sizes 0xac "lods" [.source] .repeated ++
    sizes 0xae "scas" [.destination] .compared

-- =============================================================== branches

/-- Calls, jumps and returns. -/
def branchForms : List Form :=
  let loops (code : Nat) (name : String) : Form :=
    (of code name [.near] []).noted [.branching, .addressed]
  [(of 0x9a "call far" [.selected] [.compact]).noted [.narrowed],
    (of 0xc2 "ret" [iw] []).noted [.branching, .bounded],
    (of 0xc3 "ret" [] []).noted [.branching, .bounded, .returning],
    (of 0xca "ret far" [iw] []).noted [.scaled], (of 0xcb "ret far" [] []).noted [.scaled],
    of 0xcc "int3" [] [], of 0xcd "int" [ib] [], of 0xce "into" [] [.compact],
    of 0xcf "iret" [] [.operand .word], of 0xcf "iretq" [] [.operand .quad],
    of 0xcf "iretd" [] [],
    loops 0xe0 "loopne", loops 0xe1 "loope", loops 0xe2 "loop",
    (of 0xe3 "jcxz" [.near] [.address .word]).noted [.branching],
    (of 0xe3 "jecxz" [.near] [.address .double]).noted [.branching],
    (of 0xe3 "jrcxz" [.near] []).noted [.branching],
    (of 0xe8 "call" [.far] []).noted [.branching, .bounded],
    (of 0xe9 "jmp" [.far] []).noted [.branching, .bounded],
    (of 0xea "jmp far" [.selected] [.compact]).noted [.narrowed],
    (of 0xeb "jmp" [.near] []).noted [.branching],
    (of 0xff "call" [.sized .pointer] [.digit 2]).noted [.untracked, .bounded],
    of 0xff "call far" [.distant] [.digit 3, .memory],
    (of 0xff "jmp" [.sized .pointer] [.digit 4]).noted [.untracked, .bounded],
    of 0xff "jmp far" [.distant] [.digit 5, .memory],
    of 0xc6 "xabort" [ib] [.next 0xf8], (of 0xc7 "xbegin" [.far] [.next 0xf8]).noted [.branching]] ++
    conditions.mapIdx fun i name =>
      (of (0x70 + i) ("j" ++ name) [.near] []).noted [.branching, .hinted, .bounded]

-- ================================================================= others

/-- Instructions on the flags, on devices and on the accumulator. -/
def plainForms : List Form :=
  let device : Slot := .given .word 2
  let bare (code : Nat) (name : String) : Form := of code name [] []
  [of 0x27 "daa" [] [.compact], of 0x2f "das" [] [.compact], of 0x37 "aaa" [] [.compact],
    of 0x3f "aas" [] [.compact],
    of 0x98 "cbw" [] [.operand .word], of 0x98 "cwde" [] [.operand .double], bare 0x98 "cdqe",
    of 0x99 "cwd" [] [.operand .word], of 0x99 "cdq" [] [.operand .double], bare 0x99 "cqo",
    bare 0x9b "fwait", bare 0x9e "sahf", bare 0x9f "lahf",
    of 0xd4 "aam" [ib] [.compact], of 0xd5 "aad" [ib] [.compact], of 0xd6 "salc" [] [.compact],
    of 0xd7 "xlat" [.table] [],
    of 0xe4 "in" [.accumulator .byte, ib] [], of 0xe5 "in" [.accumulator .small, ib] [],
    of 0xe6 "out" [ib, .accumulator .byte] [], of 0xe7 "out" [ib, .accumulator .small] [],
    of 0xec "in" [.accumulator .byte, device] [], of 0xed "in" [.accumulator .small, device] [],
    of 0xee "out" [device, .accumulator .byte] [],
    of 0xef "out" [device, .accumulator .small] [],
    bare 0xf1 "int1", bare 0xf4 "hlt", bare 0xf5 "cmc", bare 0xf8 "clc", bare 0xf9 "stc",
    bare 0xfa "cli", bare 0xfb "sti", bare 0xfc "cld", bare 0xfd "std"]

/-- The forms of the instructions whose code is one byte. -/
def wholeForms : List Form :=
  arithmeticForms ++ shiftForms ++ unaryForms ++ moveForms ++ stackForms ++ stringForms ++
    branchForms ++ plainForms

end ClrListing.Native
