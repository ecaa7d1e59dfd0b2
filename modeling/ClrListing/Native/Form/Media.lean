/-
The forms of the instructions on several small numbers at once, in
registers of 64 and of 128 bits.
-/
import ClrListing.Native.Form.Basic

namespace ClrListing.Native

open Form (of byDigit)
open Slot

-- ============================================================== mnemonics

/-- The suffixes of instructions on real numbers: several or one, of single
or double precision, by the byte before the code. -/
def precisions : List (Mark × String) :=
  [(.none, "ps"), (.narrow, "pd"), (.equal, "ss"), (.different, "sd")]

/-- The comparisons of real numbers by their number. -/
def comparisons : List String := ["eq", "lt", "le", "unord", "neq", "nlt", "nle", "ord"]

/-- A mnemonic of a comparison for each of some relations. -/
def comparing (relations : List String) (stem suffix : String) : Name :=
  .chosen (stem ++ suffix) (relations.mapIdx fun i relation => (i, stem ++ relation ++ suffix))

/-- The products of polynomials by the halves that they take. -/
def halves (stem : String) : Name :=
  .chosen (stem ++ "qdq")
    [(0x00, stem ++ "lqlqdq"), (0x01, stem ++ "hqlqdq"), (0x10, stem ++ "lqhqdq"),
      (0x11, stem ++ "hqhqdq")]

/-- Arithmetic on whole numbers by code, common to registers of all
lengths. -/
def smallArithmetic : List (Nat × String) :=
  [(0x60, "punpcklbw"), (0x61, "punpcklwd"), (0x62, "punpckldq"), (0x63, "packsswb"),
    (0x64, "pcmpgtb"), (0x65, "pcmpgtw"), (0x66, "pcmpgtd"), (0x67, "packuswb"),
    (0x68, "punpckhbw"), (0x69, "punpckhwd"), (0x6a, "punpckhdq"), (0x6b, "packssdw"),
    (0x74, "pcmpeqb"), (0x75, "pcmpeqw"), (0x76, "pcmpeqd"), (0xd1, "psrlw"), (0xd2, "psrld"),
    (0xd3, "psrlq"), (0xd4, "paddq"), (0xd5, "pmullw"), (0xd8, "psubusb"), (0xd9, "psubusw"),
    (0xda, "pminub"), (0xdb, "pand"), (0xdc, "paddusb"), (0xdd, "paddusw"), (0xde, "pmaxub"),
    (0xdf, "pandn"), (0xe0, "pavgb"), (0xe1, "psraw"), (0xe2, "psrad"), (0xe3, "pavgw"),
    (0xe4, "pmulhuw"), (0xe5, "pmulhw"), (0xe8, "psubsb"), (0xe9, "psubsw"), (0xea, "pminsw"),
    (0xeb, "por"), (0xec, "paddsb"), (0xed, "paddsw"), (0xee, "pmaxsw"), (0xef, "pxor"),
    (0xf1, "psllw"), (0xf2, "pslld"), (0xf3, "psllq"), (0xf4, "pmuludq"), (0xf5, "pmaddwd"),
    (0xf6, "psadbw"), (0xf8, "psubb"), (0xf9, "psubw"), (0xfa, "psubd"), (0xfb, "psubq"),
    (0xfc, "paddb"), (0xfd, "paddw"), (0xfe, "paddd")]

/-- The same for numbers of 64 bits, which short registers do not hold two
of. -/
def longArithmetic : List (Nat × String) := [(0x6c, "punpcklqdq"), (0x6d, "punpckhqdq")]

/-- Arithmetic whose code begins with 0f38, common to registers of all
lengths. -/
def laterArithmetic : List (Nat × String) :=
  [(0x00, "pshufb"), (0x01, "phaddw"), (0x02, "phaddd"), (0x03, "phaddsw"),
    (0x04, "pmaddubsw"), (0x05, "phsubw"), (0x06, "phsubd"), (0x07, "phsubsw"),
    (0x08, "psignb"), (0x09, "psignw"), (0x0a, "psignd"), (0x0b, "pmulhrsw")]

/-- The magnitudes, whose code begins with 0f38. -/
def magnitudes : List (Nat × String) := [(0x1c, "pabsb"), (0x1d, "pabsw"), (0x1e, "pabsd")]

/-- Arithmetic whose code begins with 0f38, for long registers only. -/
def vectorArithmetic : List (Nat × String) :=
  [(0x28, "pmuldq"), (0x29, "pcmpeqq"), (0x2b, "packusdw"), (0x37, "pcmpgtq"),
    (0x38, "pminsb"), (0x39, "pminsd"), (0x3a, "pminuw"), (0x3b, "pminud"), (0x3c, "pmaxsb"),
    (0x3d, "pmaxsd"), (0x3e, "pmaxuw"), (0x3f, "pmaxud"), (0x40, "pmulld")]

/-- Moves that extend numbers, whose code begins with 0f38. -/
def extensions : List (Nat × String) :=
  [(0x20, "pmovsxbw"), (0x21, "pmovsxbd"), (0x22, "pmovsxbq"), (0x23, "pmovsxwd"),
    (0x24, "pmovsxwq"), (0x25, "pmovsxdq"), (0x30, "pmovzxbw"), (0x31, "pmovzxbd"),
    (0x32, "pmovzxbq"), (0x33, "pmovzxwd"), (0x34, "pmovzxwq"), (0x35, "pmovzxdq")]

/-- Rounds of a cipher, whose code begins with 0f38. -/
def ciphers : List (Nat × String) :=
  [(0xdc, "aesenc"), (0xdd, "aesenclast"), (0xde, "aesdec"), (0xdf, "aesdeclast")]

/-- Arithmetic on real numbers in all precisions by code. -/
def realFour : List (Nat × String) :=
  [(0x58, "add"), (0x59, "mul"), (0x5c, "sub"), (0x5d, "min"), (0x5e, "div"), (0x5f, "max")]

/-- Arithmetic on several real numbers in both precisions by code. -/
def realTwo : List (Nat × String) :=
  [(0x14, "unpckl"), (0x15, "unpckh"), (0x54, "and"), (0x55, "andn"), (0x56, "or"),
    (0x57, "xor")]

/-- Shifts by an immediate: the code, the operation and the mnemonic. -/
def smallShifts : List (Nat × Nat × String) :=
  [(0x71, 2, "psrlw"), (0x71, 4, "psraw"), (0x71, 6, "psllw"), (0x72, 2, "psrld"),
    (0x72, 4, "psrad"), (0x72, 6, "pslld"), (0x73, 2, "psrlq"), (0x73, 6, "psllq")]

/-- Shifts of whole registers. -/
def wholeShifts : List (Nat × Nat × String) := [(0x73, 3, "psrldq"), (0x73, 7, "pslldq")]

-- =========================================================== real numbers

/-- Arithmetic on real numbers. -/
def realVectorForms : List Form :=
  let each (marks : List (Mark × String)) (code : Nat) (stem : String) : List Form :=
    marks.map fun (mark, suffix) => of (0x0f00 + code) (stem ++ suffix) [v, w] [.mark mark]
  let several := precisions.take 2
  let singles : List (Mark × String) := [(.none, "ps"), (.equal, "ss")]
  realFour.flatMap (fun (code, stem) => each precisions code stem) ++
    realTwo.flatMap (fun (code, stem) => each several code stem) ++
    each precisions 0x51 "sqrt" ++ each singles 0x52 "rsqrt" ++ each singles 0x53 "rcp" ++
    precisions.map (fun (mark, suffix) =>
      ⟨0x0fc2, comparing comparisons "cmp" suffix, [v, w, ib], [.mark mark], []⟩) ++
    several.map (fun (mark, suffix) => of 0x0fc6 ("shuf" ++ suffix) [v, w, ib] [.mark mark]) ++
    [of 0x0f2e "ucomiss" [v, w] [.mark .none], of 0x0f2e "ucomisd" [v, w] [.mark .narrow],
      of 0x0f2f "comiss" [v, w] [.mark .none], of 0x0f2f "comisd" [v, w] [.mark .narrow],
      of 0x0f7c "haddpd" [v, w] [.mark .narrow], of 0x0f7c "haddps" [v, w] [.mark .different],
      of 0x0f7d "hsubpd" [v, w] [.mark .narrow], of 0x0f7d "hsubps" [v, w] [.mark .different],
      of 0x0fd0 "addsubpd" [v, w] [.mark .narrow],
      of 0x0fd0 "addsubps" [v, w] [.mark .different]]

/-- Conversions between real and whole numbers. -/
def conversionForms : List Form :=
  let form (code : Nat) (mark : Mark) (name : String) (slots : List Slot) : Form :=
    of code name slots [.mark mark]
  [form 0x0f2a .none "cvtpi2ps" [v, q], form 0x0f2a .narrow "cvtpi2pd" [v, q],
    form 0x0f2a .equal "cvtsi2ss" [v, .sized .wide],
    form 0x0f2a .different "cvtsi2sd" [v, .sized .wide],
    form 0x0f2c .none "cvttps2pi" [p, w], form 0x0f2c .narrow "cvttpd2pi" [p, w],
    form 0x0f2c .equal "cvttss2si" [gy, w], form 0x0f2c .different "cvttsd2si" [gy, w],
    form 0x0f2d .none "cvtps2pi" [p, w], form 0x0f2d .narrow "cvtpd2pi" [p, w],
    form 0x0f2d .equal "cvtss2si" [gy, w], form 0x0f2d .different "cvtsd2si" [gy, w],
    form 0x0f5a .none "cvtps2pd" [v, w], form 0x0f5a .narrow "cvtpd2ps" [v, w],
    form 0x0f5a .equal "cvtss2sd" [v, w], form 0x0f5a .different "cvtsd2ss" [v, w],
    form 0x0f5b .none "cvtdq2ps" [v, w], form 0x0f5b .narrow "cvtps2dq" [v, w],
    form 0x0f5b .equal "cvttps2dq" [v, w], form 0x0fe6 .narrow "cvttpd2dq" [v, w],
    form 0x0fe6 .equal "cvtdq2pd" [v, w], form 0x0fe6 .different "cvtpd2dq" [v, w]]

-- ================================================================== moves

/-- Moves of real numbers. -/
def realTransferForms : List Form :=
  let form (code : Nat) (mark : Mark) (name : String) (slots : List Slot) : Form :=
    of code name slots [.mark mark]
  let fromMemory (code : Nat) (mark : Mark) (name : String) : Form :=
    of code name [v, w] [.mark mark, .memory]
  let toMemory (code : Nat) (mark : Mark) (name : String) : Form :=
    of code name [w, v] [.mark mark, .memory]
  [form 0x0f10 .none "movups" [v, w], form 0x0f10 .narrow "movupd" [v, w],
    form 0x0f10 .equal "movss" [v, w], form 0x0f10 .different "movsd" [v, w],
    form 0x0f11 .none "movups" [w, v], form 0x0f11 .narrow "movupd" [w, v],
    form 0x0f11 .equal "movss" [w, v], form 0x0f11 .different "movsd" [w, v],
    fromMemory 0x0f12 .none "movlps", form 0x0f12 .none "movhlps" [v, w],
    fromMemory 0x0f12 .narrow "movlpd", form 0x0f12 .equal "movsldup" [v, w],
    form 0x0f12 .different "movddup" [v, w], toMemory 0x0f13 .none "movlps",
    toMemory 0x0f13 .narrow "movlpd", fromMemory 0x0f16 .none "movhps",
    form 0x0f16 .none "movlhps" [v, w], fromMemory 0x0f16 .narrow "movhpd",
    form 0x0f16 .equal "movshdup" [v, w], toMemory 0x0f17 .none "movhps",
    toMemory 0x0f17 .narrow "movhpd", form 0x0f28 .none "movaps" [v, w],
    form 0x0f28 .narrow "movapd" [v, w], form 0x0f29 .none "movaps" [w, v],
    form 0x0f29 .narrow "movapd" [w, v], toMemory 0x0f2b .none "movntps",
    toMemory 0x0f2b .narrow "movntpd", toMemory 0x0f2b .equal "movntss",
    toMemory 0x0f2b .different "movntsd",
    of 0x0f50 "movmskps" [gd, w] [.mark .none, .direct],
    of 0x0f50 "movmskpd" [gd, w] [.mark .narrow, .direct]]

/-- Moves of whole numbers. -/
def transferForms : List Form :=
  let form (code : Nat) (mark : Mark) (name : String) (slots : List Slot) : Form :=
    of code name slots [.mark mark]
  let quads (code : Nat) (mark : Mark) (slots : List Slot) : List Form :=
    [of code "movq" slots [.mark mark, .wide, .long], of code "movd" slots [.mark mark]]
  quads 0x0f6e .none [p, ey] ++ quads 0x0f6e .narrow [v, ey] ++ quads 0x0f7e .none [ey, p] ++
    quads 0x0f7e .narrow [ey, v] ++
    [form 0x0f7e .equal "movq" [v, w], form 0x0f6f .none "movq" [p, q],
      form 0x0f6f .narrow "movdqa" [v, w], form 0x0f6f .equal "movdqu" [v, w],
      form 0x0f7f .none "movq" [q, p], form 0x0f7f .narrow "movdqa" [w, v],
      form 0x0f7f .equal "movdqu" [w, v], form 0x0fd6 .narrow "movq" [w, v],
      of 0x0fd6 "movq2dq" [v, q] [.mark .equal, .direct],
      of 0x0fd6 "movdq2q" [p, w] [.mark .different, .direct],
      of 0x0fd7 "pmovmskb" [gd, q] [.mark .none, .direct],
      of 0x0fd7 "pmovmskb" [gd, w] [.mark .narrow, .direct],
      of 0x0fe7 "movntq" [q, p] [.mark .none, .memory],
      of 0x0fe7 "movntdq" [w, v] [.mark .narrow, .memory],
      of 0x0ff0 "lddqu" [v, w] [.mark .different, .memory],
      (of 0x0ff7 "maskmovq" [p, q] [.mark .none, .direct]).noted [.addressed, .segmented],
      (of 0x0ff7 "maskmovdqu" [v, w] [.mark .narrow, .direct]).noted [.addressed, .segmented],
      of 0x0f382a "movntdqa" [v, w] [.mark .narrow, .memory],
      form 0x0fc4 .none "pinsrw" [p, ed, ib], form 0x0fc4 .narrow "pinsrw" [v, ed, ib],
      of 0x0fc5 "pextrw" [gd, q, ib] [.mark .none, .direct],
      of 0x0fc5 "pextrw" [gd, w, ib] [.mark .narrow, .direct],
      form 0x0f3a14 .narrow "pextrb" [ed, v, ib], form 0x0f3a15 .narrow "pextrw" [ed, v, ib],
      of 0x0f3a16 "pextrq" [ey, v, ib] [.mark .narrow, .wide, .long],
      form 0x0f3a16 .narrow "pextrd" [ey, v, ib],
      form 0x0f3a17 .narrow "extractps" [ed, v, ib],
      form 0x0f3a20 .narrow "pinsrb" [v, ed, ib],
      form 0x0f3a21 .narrow "insertps" [v, w, ib],
      of 0x0f3a22 "pinsrq" [v, ey, ib] [.mark .narrow, .wide, .long],
      form 0x0f3a22 .narrow "pinsrd" [v, ey, ib]]

-- ========================================================== whole numbers

/-- Arithmetic on whole numbers. -/
def smallForms : List Form :=
  let both (start : Nat) (entry : Nat × String) : List Form :=
    [of (start + entry.1) entry.2 [p, q] [.mark .none],
      of (start + entry.1) entry.2 [v, w] [.mark .narrow]]
  let one (start : Nat) (entry : Nat × String) : Form :=
    of (start + entry.1) entry.2 [v, w] [.mark .narrow]
  smallArithmetic.flatMap (both 0x0f00) ++ longArithmetic.map (one 0x0f00) ++
    laterArithmetic.flatMap (both 0x0f3800) ++ magnitudes.flatMap (both 0x0f3800) ++
    vectorArithmetic.map (one 0x0f3800) ++ extensions.map (one 0x0f3800) ++
    ciphers.map (one 0x0f3800) ++
    smallShifts.flatMap (fun (code, digit, name) =>
      [of (0x0f00 + code) name [q, ib] [.mark .none, .digit digit, .direct],
        of (0x0f00 + code) name [w, ib] [.mark .narrow, .digit digit, .direct]]) ++
    wholeShifts.map (fun (code, digit, name) =>
      of (0x0f00 + code) name [w, ib] [.mark .narrow, .digit digit, .direct]) ++
    [of 0x0f70 "pshufw" [p, q, ib] [.mark .none], of 0x0f70 "pshufd" [v, w, ib] [.mark .narrow],
      of 0x0f70 "pshufhw" [v, w, ib] [.mark .equal],
      of 0x0f70 "pshuflw" [v, w, ib] [.mark .different]]

/-- Instructions whose codes begin with 0f38 and 0f3a. -/
def laterForms : List Form :=
  let one (code : Nat) (name : String) : Form := of code name [v, w] [.mark .narrow]
  let chosen (code : Nat) (name : String) : Form := of code name [v, w, ib] [.mark .narrow]
  let plain (code : Nat) (name : String) : Form := of code name [v, w] [.mark .none]
  let sized (code : Nat) (name : String) : List Form :=
    [of code (name ++ "64") [v, w, ib] [.mark .narrow, .wide, .long], chosen code name]
  [one 0x0f3810 "pblendvb", one 0x0f3814 "blendvps", one 0x0f3815 "blendvpd",
    one 0x0f3817 "ptest", one 0x0f3841 "phminposuw", one 0x0f38cf "gf2p8mulb",
    one 0x0f38db "aesimc", plain 0x0f38c8 "sha1nexte", plain 0x0f38c9 "sha1msg1",
    plain 0x0f38ca "sha1msg2", plain 0x0f38cb "sha256rnds2", plain 0x0f38cc "sha256msg1",
    plain 0x0f38cd "sha256msg2", chosen 0x0f3a08 "roundps", chosen 0x0f3a09 "roundpd",
    chosen 0x0f3a0a "roundss", chosen 0x0f3a0b "roundsd", chosen 0x0f3a0c "blendps",
    chosen 0x0f3a0d "blendpd", chosen 0x0f3a0e "pblendw",
    of 0x0f3a0f "palignr" [p, q, ib] [.mark .none], chosen 0x0f3a0f "palignr",
    chosen 0x0f3a40 "dpps", chosen 0x0f3a41 "dppd", chosen 0x0f3a42 "mpsadbw",
    ⟨0x0f3a44, halves "pclmul", [v, w, ib], [.mark .narrow], []⟩,
    chosen 0x0f3a62 "pcmpistrm", chosen 0x0f3a63 "pcmpistri",
    of 0x0f3acc "sha1rnds4" [v, w, ib] [.mark .none],
    of 0x0f3ace "gf2p8affineqb" [v, w, ib] [.mark .narrow],
    of 0x0f3acf "gf2p8affineinvqb" [v, w, ib] [.mark .narrow],
    chosen 0x0f3adf "aeskeygenassist",
    of 0x0f78 "extrq" [w, ib, ib] [.mark .narrow, .digit 0, .direct],
    of 0x0f78 "insertq" [v, w, ib, ib] [.mark .different, .direct],
    of 0x0f79 "extrq" [v, w] [.mark .narrow, .direct],
    of 0x0f79 "insertq" [v, w] [.mark .different, .direct]] ++
    sized 0x0f3a60 "pcmpestrm" ++ sized 0x0f3a61 "pcmpestri"

/-- The instructions that a byte after the operands names. -/
def suffixed : List (Nat × String) :=
  [(0x0c, "pi2fw"), (0x0d, "pi2fd"), (0x1c, "pf2iw"), (0x1d, "pf2id"), (0x8a, "pfnacc"),
    (0x8e, "pfpnacc"), (0x90, "pfcmpge"), (0x94, "pfmin"), (0x96, "pfrcp"), (0x97, "pfrsqrt"),
    (0x9a, "pfsub"), (0x9e, "pfadd"), (0xa0, "pfcmpgt"), (0xa4, "pfmax"), (0xa6, "pfrcpit1"),
    (0xa7, "pfrsqit1"), (0xaa, "pfsubr"), (0xae, "pfacc"), (0xb0, "pfcmpeq"),
    (0xb4, "pfmul"), (0xb6, "pfrcpit2"), (0xb7, "pmulhrw"), (0xbb, "pswapd"),
    (0xbf, "pavgusb")]

/-- The forms of the instructions on several small numbers. -/
def mediaForms : List Form :=
  realVectorForms ++ conversionForms ++ realTransferForms ++ transferForms ++ smallForms ++
    laterForms ++ [⟨0x0f0f, .numbered suffixed, [p, q, ib], [], []⟩]

end ClrListing.Native
