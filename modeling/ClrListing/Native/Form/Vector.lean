/-
The forms of the instructions on vectors whose length, and mostly whose
second register, are named before the code.
-/
import ClrListing.Native.Form.Media

namespace ClrListing.Native

open Form (of byDigit)
open Slot

-- ================================================================== slots

/-- A vector that a byte after the operands names. -/
def lx : Slot := .last .packed

/-- The general register that the mode names. -/
def hy : Slot := .second .wide

-- ============================================================== mnemonics

/-- The relations by which numbers are compared, by number. -/
def relations : List String :=
  comparisons ++
    ["eq_uq", "nge", "ngt", "false", "neq_oq", "ge", "gt", "true", "eq_os", "lt_oq", "le_oq",
      "unord_s", "neq_us", "nlt_uq", "nle_uq", "ord_s", "eq_us", "nge_uq", "ngt_uq",
      "false_os", "neq_os", "ge_oq", "gt_oq", "true_us"]

/-- Products with a sum by code, of several numbers. -/
def fused : List (Nat × String) :=
  [(0x06, "fmaddsub"), (0x07, "fmsubadd"), (0x08, "fmadd"), (0x0a, "fmsub"), (0x0c, "fnmadd"),
    (0x0e, "fnmsub")]

/-- The orders of the operands of a product with a sum. -/
def fusedOrders : List (Nat × String) := [(0x90, "132"), (0xa0, "213"), (0xb0, "231")]

-- =========================================================== real numbers

/-- Arithmetic on real numbers. -/
def longRealForms : List Form :=
  let each (slots : List Slot) (marks : List (Mark × String)) (code : Nat) (stem : String) :
      List Form :=
    marks.map fun (mark, suffix) => of (0x0f00 + code) ("v" ++ stem ++ suffix) slots [.mark mark]
  let several := precisions.take 2
  let one : List (Mark × String) := [(.none, "ps")]
  let single : List (Mark × String) := [(.equal, "ss")]
  let scalar := precisions.drop 2
  realFour.flatMap (fun (code, stem) =>
      each [vx, hx, wx] several code stem ++ each [v, h, w] scalar code stem) ++
    realTwo.flatMap (fun (code, stem) => each [vx, hx, wx] several code stem) ++
    each [vx, wx] several 0x51 "sqrt" ++ each [v, h, w] scalar 0x51 "sqrt" ++
    each [vx, wx] one 0x52 "rsqrt" ++ each [v, h, w] single 0x52 "rsqrt" ++
    each [vx, wx] one 0x53 "rcp" ++ each [v, h, w] single 0x53 "rcp" ++
    several.map (fun (mark, suffix) =>
      ⟨0x0fc2, comparing relations "vcmp" suffix, [vx, hx, wx, ib], [.mark mark], []⟩) ++
    scalar.map (fun (mark, suffix) =>
      ⟨0x0fc2, comparing relations "vcmp" suffix, [v, h, w, ib], [.mark mark], []⟩) ++
    several.map (fun (mark, suffix) =>
      of 0x0fc6 ("vshuf" ++ suffix) [vx, hx, wx, ib] [.mark mark]) ++
    [of 0x0f2e "vucomiss" [v, w] [.mark .none], of 0x0f2e "vucomisd" [v, w] [.mark .narrow],
      of 0x0f2f "vcomiss" [v, w] [.mark .none], of 0x0f2f "vcomisd" [v, w] [.mark .narrow],
      of 0x0f7c "vhaddpd" [vx, hx, wx] [.mark .narrow],
      of 0x0f7c "vhaddps" [vx, hx, wx] [.mark .different],
      of 0x0f7d "vhsubpd" [vx, hx, wx] [.mark .narrow],
      of 0x0f7d "vhsubps" [vx, hx, wx] [.mark .different],
      of 0x0fd0 "vaddsubpd" [vx, hx, wx] [.mark .narrow],
      of 0x0fd0 "vaddsubps" [vx, hx, wx] [.mark .different]]

/-- Conversions between real and whole numbers. -/
def longConversionForms : List Form :=
  let form (code : Nat) (mark : Mark) (name : String) (slots : List Slot) : Form :=
    of code name slots [.mark mark]
  [form 0x0f2a .equal "vcvtsi2ss" [v, h, .sized .wide],
    form 0x0f2a .different "vcvtsi2sd" [v, h, .sized .wide],
    form 0x0f2c .equal "vcvttss2si" [gy, w], form 0x0f2c .different "vcvttsd2si" [gy, w],
    form 0x0f2d .equal "vcvtss2si" [gy, w], form 0x0f2d .different "vcvtsd2si" [gy, w],
    form 0x0f5a .none "vcvtps2pd" [vx, w], form 0x0f5a .narrow "vcvtpd2ps" [v, .sized .packed],
    form 0x0f5a .equal "vcvtss2sd" [v, h, w], form 0x0f5a .different "vcvtsd2ss" [v, h, w],
    form 0x0f5b .none "vcvtdq2ps" [vx, wx], form 0x0f5b .narrow "vcvtps2dq" [vx, wx],
    form 0x0f5b .equal "vcvttps2dq" [vx, wx],
    form 0x0fe6 .narrow "vcvttpd2dq" [v, .sized .packed],
    form 0x0fe6 .equal "vcvtdq2pd" [vx, w],
    form 0x0fe6 .different "vcvtpd2dq" [v, .sized .packed],
    of 0x0f3813 "vcvtph2ps" [vx, w] [.mark .narrow, .slim],
    of 0x0f3a1d "vcvtps2ph" [w, vx, ib] [.mark .narrow, .slim]]

/-- Products with a sum. -/
def fusedForms : List Form :=
  fusedOrders.flatMap fun (start, order) =>
    fused.flatMap fun (code, stem) =>
      let name := "v" ++ stem ++ order
      let several : List Form :=
        [of (0x0f3800 + start + code) (name ++ "ps") [vx, hx, wx] [.mark .narrow, .slim],
          of (0x0f3800 + start + code) (name ++ "pd") [vx, hx, wx] [.mark .narrow, .wide]]
      let one : List Form :=
        [of (0x0f3801 + start + code) (name ++ "ss") [v, h, w] [.mark .narrow, .slim],
          of (0x0f3801 + start + code) (name ++ "sd") [v, h, w] [.mark .narrow, .wide]]
      if code < 8 then several else several ++ one

/-- Products with a sum of four operands, the last two of which are
named in either order. -/
def fusedFourForms : List Form :=
  let pair (code : Nat) (name : String) (start : List Slot) (target last : Slot) : List Form :=
    [of code name (start ++ [target, last]) [.mark .narrow, .slim],
      of code name (start ++ [last, target]) [.mark .narrow, .wide]]
  let several (code : Nat) (name : String) : List Form := pair code name [vx, hx] wx lx
  let one (code : Nat) (name : String) : List Form := pair code name [v, h] w (.last .vector)
  several 0x0f3a5c "vfmaddsubps" ++ several 0x0f3a5d "vfmaddsubpd" ++
    several 0x0f3a5e "vfmsubaddps" ++ several 0x0f3a5f "vfmsubaddpd" ++
    ([(0x68, "vfmadd"), (0x6c, "vfmsub"), (0x78, "vfnmadd"), (0x7c, "vfnmsub")].flatMap
      fun (code, name) =>
        several (0x0f3a00 + code) (name ++ "ps") ++ several (0x0f3a01 + code) (name ++ "pd") ++
          one (0x0f3a02 + code) (name ++ "ss") ++ one (0x0f3a03 + code) (name ++ "sd"))

-- ================================================================== moves

/-- Moves of real numbers. -/
def longRealTransferForms : List Form :=
  let form (code : Nat) (mark : Mark) (name : String) (slots : List Slot) : Form :=
    of code name slots [.mark mark]
  let both (code : Nat) (mark : Mark) (name : String) : List Form :=
    [of code name [vx, wx] [.mark mark], of (code + 1) name [wx, vx] [.mark mark]]
  let one (code : Nat) (mark : Mark) (name : String) : List Form :=
    [of code name [v, w] [.mark mark, .memory], of code name [v, h, w] [.mark mark],
      of (code + 1) name [w, v] [.mark mark, .memory], of (code + 1) name [w, h, v] [.mark mark]]
  let part (code : Nat) (mark : Mark) (name : String) : List Form :=
    [of code name [v, h, w] [.mark mark, .memory, .half],
      of (code + 1) name [w, v] [.mark mark, .memory, .half]]
  let stream (code : Nat) (mark : Mark) (name : String) : Form :=
    of code name [wx, vx] [.mark mark, .memory]
  both 0x0f10 .none "vmovups" ++ both 0x0f10 .narrow "vmovupd" ++ one 0x0f10 .equal "vmovss" ++
    one 0x0f10 .different "vmovsd" ++ part 0x0f12 .none "vmovlps" ++
    part 0x0f12 .narrow "vmovlpd" ++ part 0x0f16 .none "vmovhps" ++
    part 0x0f16 .narrow "vmovhpd" ++ both 0x0f28 .none "vmovaps" ++
    both 0x0f28 .narrow "vmovapd" ++
    [of 0x0f12 "vmovhlps" [v, h, w] [.mark .none, .direct, .half],
      of 0x0f16 "vmovlhps" [v, h, w] [.mark .none, .direct, .half],
      form 0x0f12 .equal "vmovsldup" [vx, wx], form 0x0f12 .different "vmovddup" [vx, wx],
      form 0x0f16 .equal "vmovshdup" [vx, wx], stream 0x0f2b .none "vmovntps",
      stream 0x0f2b .narrow "vmovntpd",
      of 0x0f50 "vmovmskps" [gd, wx] [.mark .none, .direct],
      of 0x0f50 "vmovmskpd" [gd, wx] [.mark .narrow, .direct]]

/-- Moves of whole numbers. -/
def longTransferForms : List Form :=
  let form (code : Nat) (mark : Mark) (name : String) (slots : List Slot) : Form :=
    of code name slots [.mark mark]
  let quads (code : Nat) (stem : String) (slots : List Slot) : List Form :=
    [of code (stem ++ "q") slots [.mark .narrow, .wide, .long, .half],
      of code (stem ++ "d") slots [.mark .narrow, .half]]
  let halved (code : Nat) (name : String) (slots : List Slot) : Form :=
    of code name slots [.mark .narrow, .half]
  quads 0x0f6e "vmov" [v, ey] ++ quads 0x0f7e "vmov" [ey, v] ++
    quads 0x0f3a16 "vpextr" [ey, v, ib] ++ quads 0x0f3a22 "vpinsr" [v, h, ey, ib] ++
    [of 0x0f7e "vmovq" [v, w] [.mark .equal, .half], halved 0x0fd6 "vmovq" [w, v],
      form 0x0f6f .narrow "vmovdqa" [vx, wx], form 0x0f6f .equal "vmovdqu" [vx, wx],
      form 0x0f7f .narrow "vmovdqa" [wx, vx], form 0x0f7f .equal "vmovdqu" [wx, vx],
      of 0x0fd7 "vpmovmskb" [gd, wx] [.mark .narrow, .direct],
      of 0x0fe7 "vmovntdq" [wx, vx] [.mark .narrow, .memory],
      of 0x0ff0 "vlddqu" [vx, wx] [.mark .different, .memory],
      (of 0x0ff7 "vmaskmovdqu" [v, w] [.mark .narrow, .direct, .half]).noted
        [.addressed, .segmented],
      of 0x0f382a "vmovntdqa" [vx, wx] [.mark .narrow, .memory],
      halved 0x0fc4 "vpinsrw" [v, h, ed, ib],
      of 0x0fc5 "vpextrw" [gd, w, ib] [.mark .narrow, .direct, .half],
      halved 0x0f3a14 "vpextrb" [ed, v, ib], halved 0x0f3a15 "vpextrw" [ed, v, ib],
      halved 0x0f3a17 "vextractps" [ed, v, ib], halved 0x0f3a20 "vpinsrb" [v, h, ed, ib],
      halved 0x0f3a21 "vinsertps" [v, h, w, ib],
      of 0x0fae "vldmxcsr" [ev] [.mark .none, .digit 2, .memory, .half],
      of 0x0fae "vstmxcsr" [ev] [.mark .none, .digit 3, .memory, .half],
      of 0x0f77 "vzeroupper" [] [.mark .none, .half], of 0x0f77 "vzeroall" [] [.mark .none]]

/-- Moves that repeat, choose or gather the numbers of a vector. -/
def choiceForms : List Form :=
  let slim (code : Nat) (name : String) (slots : List Slot) : Form :=
    of code name slots [.mark .narrow, .slim]
  let wide (code : Nat) (name : String) (slots : List Slot) : Form :=
    of code name slots [.mark .narrow, .wide]
  let full (code : Nat) (name : String) (slots : List Slot) (more : List Condition) : Form :=
    of code name slots ([.mark .narrow, .full, .slim] ++ more)
  let gather (code : Nat) (name : String) (value index : Kind) (width : Condition) : Form :=
    (of code name [.register value, .spread index, .second value]
      [.mark .narrow, width, .memory]).noted [.distinct]
  [slim 0x0f380c "vpermilps" [vx, hx, wx], slim 0x0f380d "vpermilpd" [vx, hx, wx],
    slim 0x0f3a04 "vpermilps" [vx, wx, ib], slim 0x0f3a05 "vpermilpd" [vx, wx, ib],
    slim 0x0f380e "vtestps" [vx, wx], slim 0x0f380f "vtestpd" [vx, wx],
    full 0x0f3816 "vpermps" [vx, hx, wx] [], full 0x0f3836 "vpermd" [vx, hx, wx] [],
    of 0x0f3a00 "vpermq" [vx, wx, ib] [.mark .narrow, .full, .wide],
    of 0x0f3a01 "vpermpd" [vx, wx, ib] [.mark .narrow, .full, .wide],
    full 0x0f3a06 "vperm2f128" [vx, hx, wx, ib] [], full 0x0f3a46 "vperm2i128" [vx, hx, wx, ib] [],
    slim 0x0f3818 "vbroadcastss" [vx, w], full 0x0f3819 "vbroadcastsd" [vx, w] [],
    full 0x0f381a "vbroadcastf128" [vx, w] [.memory],
    full 0x0f385a "vbroadcasti128" [vx, w] [.memory],
    slim 0x0f3858 "vpbroadcastd" [vx, w], slim 0x0f3859 "vpbroadcastq" [vx, w],
    slim 0x0f3878 "vpbroadcastb" [vx, w], slim 0x0f3879 "vpbroadcastw" [vx, w],
    full 0x0f3a18 "vinsertf128" [vx, hx, w, ib] [], full 0x0f3a19 "vextractf128" [w, vx, ib] [],
    full 0x0f3a38 "vinserti128" [vx, hx, w, ib] [], full 0x0f3a39 "vextracti128" [w, vx, ib] [],
    slim 0x0f3a4a "vblendvps" [vx, hx, wx, lx], slim 0x0f3a4b "vblendvpd" [vx, hx, wx, lx],
    slim 0x0f3a4c "vpblendvb" [vx, hx, wx, lx], slim 0x0f3a02 "vpblendd" [vx, hx, wx, ib],
    of 0x0f382c "vmaskmovps" [vx, hx, wx] [.mark .narrow, .slim, .memory],
    of 0x0f382d "vmaskmovpd" [vx, hx, wx] [.mark .narrow, .slim, .memory],
    of 0x0f382e "vmaskmovps" [wx, hx, vx] [.mark .narrow, .slim, .memory],
    of 0x0f382f "vmaskmovpd" [wx, hx, vx] [.mark .narrow, .slim, .memory],
    of 0x0f388c "vpmaskmovd" [vx, hx, wx] [.mark .narrow, .slim, .memory],
    of 0x0f388c "vpmaskmovq" [vx, hx, wx] [.mark .narrow, .wide, .memory],
    of 0x0f388e "vpmaskmovd" [wx, hx, vx] [.mark .narrow, .slim, .memory],
    of 0x0f388e "vpmaskmovq" [wx, hx, vx] [.mark .narrow, .wide, .memory],
    slim 0x0f3845 "vpsrlvd" [vx, hx, wx], wide 0x0f3845 "vpsrlvq" [vx, hx, wx],
    slim 0x0f3846 "vpsravd" [vx, hx, wx], slim 0x0f3847 "vpsllvd" [vx, hx, wx],
    wide 0x0f3847 "vpsllvq" [vx, hx, wx],
    slim 0x0f3850 "vpdpbusd" [vx, hx, wx], slim 0x0f3851 "vpdpbusds" [vx, hx, wx],
    slim 0x0f3852 "vpdpwssd" [vx, hx, wx], slim 0x0f3853 "vpdpwssds" [vx, hx, wx],
    wide 0x0f38b4 "vpmadd52luq" [vx, hx, wx], wide 0x0f38b5 "vpmadd52huq" [vx, hx, wx],
    gather 0x0f3890 "vpgatherdd" .packed .packed .slim,
    gather 0x0f3890 "vpgatherdq" .packed .vector .wide,
    gather 0x0f3891 "vpgatherqd" .vector .packed .slim,
    gather 0x0f3891 "vpgatherqq" .packed .packed .wide,
    gather 0x0f3892 "vgatherdps" .packed .packed .slim,
    gather 0x0f3892 "vgatherdpd" .packed .vector .wide,
    gather 0x0f3893 "vgatherqps" .vector .packed .slim,
    gather 0x0f3893 "vgatherqpd" .packed .packed .wide]

-- ========================================================== whole numbers

/-- Arithmetic on whole numbers. -/
def longSmallForms : List Form :=
  let three (start : Nat) (entry : Nat × String) : Form :=
    of (start + entry.1) ("v" ++ entry.2) [vx, hx, wx] [.mark .narrow]
  let two (start : Nat) (target : Slot) (entry : Nat × String) : Form :=
    of (start + entry.1) ("v" ++ entry.2) [vx, target] [.mark .narrow]
  /- The numbers of these shifts are always in a short vector. -/
  let counted : List Nat := [0xd1, 0xd2, 0xd3, 0xe1, 0xe2, 0xf1, 0xf2, 0xf3]
  let common := smallArithmetic ++ longArithmetic
  (common.filter fun entry => !counted.contains entry.1).map (three 0x0f00) ++
    (common.filter fun entry => counted.contains entry.1).map (fun (code, name) =>
      of (0x0f00 + code) ("v" ++ name) [vx, hx, w] [.mark .narrow]) ++
    laterArithmetic.map (three 0x0f3800) ++ vectorArithmetic.map (three 0x0f3800) ++
    ciphers.map (three 0x0f3800) ++ magnitudes.map (two 0x0f3800 wx) ++
    extensions.map (two 0x0f3800 w) ++
    (smallShifts ++ wholeShifts).map (fun (code, digit, name) =>
      of (0x0f00 + code) ("v" ++ name) [hx, wx, ib] [.mark .narrow, .digit digit, .direct]) ++
    [of 0x0f70 "vpshufd" [vx, wx, ib] [.mark .narrow],
      of 0x0f70 "vpshufhw" [vx, wx, ib] [.mark .equal],
      of 0x0f70 "vpshuflw" [vx, wx, ib] [.mark .different]]

/-- Instructions whose codes begin with 0f38 and 0f3a. -/
def longLaterForms : List Form :=
  let chosen (code : Nat) (name : String) (slots : List Slot) : Form :=
    of code name (slots ++ [ib]) [.mark .narrow]
  let halved (code : Nat) (name : String) (slots : List Slot) : Form :=
    of code name slots [.mark .narrow, .half]
  let sized (code : Nat) (name : String) : List Form :=
    [of code (name ++ "64") [v, w, ib] [.mark .narrow, .half, .wide, .long],
      halved code name [v, w, ib]]
  [of 0x0f3817 "vptest" [vx, wx] [.mark .narrow], halved 0x0f3841 "vphminposuw" [v, w],
    of 0x0f38cf "vgf2p8mulb" [vx, hx, wx] [.mark .narrow, .slim],
    halved 0x0f38db "vaesimc" [v, w], chosen 0x0f3a08 "vroundps" [vx, wx],
    chosen 0x0f3a09 "vroundpd" [vx, wx], chosen 0x0f3a0a "vroundss" [v, h, w],
    chosen 0x0f3a0b "vroundsd" [v, h, w], chosen 0x0f3a0c "vblendps" [vx, hx, wx],
    chosen 0x0f3a0d "vblendpd" [vx, hx, wx], chosen 0x0f3a0e "vpblendw" [vx, hx, wx],
    chosen 0x0f3a0f "vpalignr" [vx, hx, wx], chosen 0x0f3a40 "vdpps" [vx, hx, wx],
    halved 0x0f3a41 "vdppd" [v, h, w, ib], chosen 0x0f3a42 "vmpsadbw" [vx, hx, wx],
    ⟨0x0f3a44, halves "vpclmul", [vx, hx, wx, ib], [.mark .narrow], []⟩,
    halved 0x0f3a62 "vpcmpistrm" [v, w, ib], halved 0x0f3a63 "vpcmpistri" [v, w, ib],
    of 0x0f3ace "vgf2p8affineqb" [vx, hx, wx, ib] [.mark .narrow, .wide],
    of 0x0f3acf "vgf2p8affineinvqb" [vx, hx, wx, ib] [.mark .narrow, .wide],
    halved 0x0f3adf "vaeskeygenassist" [v, w, ib]] ++
    sized 0x0f3a60 "vpcmpestrm" ++ sized 0x0f3a61 "vpcmpestri"

-- ====================================================== general registers

/-- Arithmetic on general registers with a register that the mode names. -/
def generalForms : List Form :=
  let form (code : Nat) (mark : Mark) (name : String) (slots : List Slot) : Form :=
    of code name slots [.mark mark, .half]
  let digit (number : Nat) (name : String) : Form :=
    of 0x0f38f3 name [hy, ey] [.mark .none, .digit number, .half]
  [form 0x0f38f2 .none "andn" [gy, hy, ey], digit 1 "blsr", digit 2 "blsmsk", digit 3 "blsi",
    form 0x0f38f5 .none "bzhi" [gy, ey, hy], form 0x0f38f5 .equal "pext" [gy, hy, ey],
    form 0x0f38f5 .different "pdep" [gy, hy, ey], form 0x0f38f6 .different "mulx" [gy, hy, ey],
    form 0x0f38f7 .none "bextr" [gy, ey, hy], form 0x0f38f7 .narrow "shlx" [gy, ey, hy],
    form 0x0f38f7 .equal "sarx" [gy, ey, hy], form 0x0f38f7 .different "shrx" [gy, ey, hy],
    form 0x0f3af0 .different "rorx" [gy, ey, ib]]

/-- Instructions on registers of one bit for each number of a vector, of
eight to 64 bits. -/
def maskForms : List Form :=
  let k : Slot := .register .mask
  let h : Slot := .second .mask
  let e : Slot := .target .mask
  let widths : List (String × Mark × Condition) :=
    [("w", .none, .slim), ("q", .none, .wide), ("b", .narrow, .slim), ("d", .narrow, .wide)]
  let each (code : Nat) (stem : String) (slots : List Slot) (more : List Condition) : List Form :=
    widths.map fun (suffix, mark, width) =>
      of code (stem ++ suffix) slots ([.mark mark, width] ++ more)
  let shift (code : Nat) (stem : String) : List Form :=
    let form (code : Nat) (suffix : String) (width : Condition) : Form :=
      of code (stem ++ suffix) [k, e, ib] [.mark .narrow, width, .direct, .half]
    [form code "b" .slim, form code "w" .wide, form (code + 1) "d" .slim, form (code + 1) "q" .wide]
  let general (code : Nat) (slots : Kind → List Slot) : List Form :=
    [of code "kmovw" (slots .double) [.mark .none, .slim, .direct, .half],
      of code "kmovb" (slots .double) [.mark .narrow, .slim, .direct, .half],
      of code "kmovq" (slots .quad) [.mark .different, .wide, .long, .direct, .half],
      of code "kmovd" (slots .double) [.mark .different, .direct, .half]]
  let three : List (Nat × String) :=
    [(0x0f41, "kand"), (0x0f42, "kandn"), (0x0f45, "kor"), (0x0f46, "kxnor"), (0x0f47, "kxor"),
      (0x0f4a, "kadd")]
  three.flatMap (fun (code, stem) => each code stem [k, h, e] [.direct, .full]) ++
    [of 0x0f4b "kunpckbw" [k, h, e] [.mark .narrow, .slim, .direct, .full],
      of 0x0f4b "kunpckwd" [k, h, e] [.mark .none, .slim, .direct, .full],
      of 0x0f4b "kunpckdq" [k, h, e] [.mark .none, .wide, .direct, .full]] ++
    each 0x0f44 "knot" [k, e] [.direct, .half] ++ each 0x0f98 "kortest" [k, e] [.direct, .half] ++
    each 0x0f99 "ktest" [k, e] [.direct, .half] ++ each 0x0f90 "kmov" [k, e] [.half] ++
    each 0x0f91 "kmov" [e, k] [.memory, .half] ++
    general 0x0f92 (fun kind => [k, .target kind]) ++
    general 0x0f93 (fun kind => [.register kind, e]) ++
    shift 0x0f3a30 "kshiftr" ++ shift 0x0f3a32 "kshiftl"

/-- The forms of the instructions on vectors of a chosen length. -/
def vectorForms : List Form :=
  longRealForms ++ longConversionForms ++ fusedForms ++ fusedFourForms ++
    longRealTransferForms ++ longTransferForms ++ choiceForms ++ longSmallForms ++
    longLaterForms ++ generalForms ++ maskForms

end ClrListing.Native
