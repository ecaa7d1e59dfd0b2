/-
The forms of the instructions on whole numbers and on the state of the
machine whose code begins with 0f.
-/
import ClrListing.Native.Form.Whole

namespace ClrListing.Native

open Form (of byDigit)
open Slot

-- ================================================================== moves

/-- Moves and branches under a condition. -/
def conditionalForms : List Form :=
  (conditions.mapIdx fun i name =>
    [of (0x0f40 + i) ("cmov" ++ name) [gv, ev] [],
      (of (0x0f80 + i) ("j" ++ name) [.far] []).noted [.branching, .hinted, .bounded],
      of (0x0f90 + i) ("set" ++ name) [eb] []]).flatten

/-- Moves that extend or reorder a number, and those of pointers. -/
def extendingForms : List Form :=
  [of 0x0fb6 "movzx" [gv, .sized .byte] [], of 0x0fb7 "movzx" [gv, .sized .word] [],
    of 0x0fbe "movsx" [gv, .sized .byte] [], of 0x0fbf "movsx" [gv, .sized .word] [],
    of 0x0fb2 "lss" [gv, ev] [.memory], of 0x0fb4 "lfs" [gv, ev] [.memory],
    of 0x0fb5 "lgs" [gv, ev] [.memory],
    of 0x0fc3 "movnti" [ey, gy] [.memory, .mark .none],
    of 0x0f38f0 "crc32" [gy, .sized .byte] [.mark .different],
    of 0x0f38f1 "crc32" [gy, .sized .operand] [.mark .different],
    of 0x0f38f0 "movbe" [gv, ev] [.memory, .unmarked],
    of 0x0f38f1 "movbe" [ev, gv] [.memory, .unmarked],
    of 0x0f38f8 "movdir64b" [.register .address, ev] [.memory, .mark .narrow],
    of 0x0f38f8 "enqcmd" [.register .address, ev] [.memory, .mark .different],
    of 0x0f38f8 "enqcmds" [.register .address, ev] [.memory, .mark .equal],
    of 0x0f38f9 "movdiri" [ey, gy] [.memory, .mark .none]] ++
    (List.range 8).map fun i => of (0x0fc8 + i) "bswap" [zv] []

-- ============================================================= arithmetic

/-- Arithmetic, searches and changes of single bits. -/
def bitForms : List Form :=
  let doubles (code : Nat) (name : String) : List Form :=
    [of code name [ev, gv, ib] [], of (code + 1) name [ev, gv, .given .byte 1] []]
  let locked := List.map (Form.noted [Note.elides])
  doubles 0x0fa4 "shld" ++ doubles 0x0fac "shrd" ++
    [of 0x0fa3 "bt" [ev, gv] [], of 0x0fba "bt" [.sized .operand, ib] [.digit 4]] ++
    locked [of 0x0fab "bts" [ev, gv] [], of 0x0fb3 "btr" [ev, gv] [],
      of 0x0fbb "btc" [ev, gv] [],
      of 0x0fba "bts" [.sized .operand, ib] [.digit 5],
      of 0x0fba "btr" [.sized .operand, ib] [.digit 6],
      of 0x0fba "btc" [.sized .operand, ib] [.digit 7],
      of 0x0fb0 "cmpxchg" [eb, gb] [], of 0x0fb1 "cmpxchg" [ev, gv] [],
      of 0x0fc0 "xadd" [eb, gb] [], of 0x0fc1 "xadd" [ev, gv] [],
      of 0x0fc7 "cmpxchg8b" [ev] [.digit 1, .memory, .slim]] ++
    [(of 0x0fc7 "cmpxchg16b" [ev] [.digit 1, .memory]).noted [.locks],
      of 0x0faf "imul" [gv, ev] [],
      of 0x0fb8 "popcnt" [gv, ev] [.mark .equal], of 0x0fbc "tzcnt" [gv, ev] [.mark .equal],
      of 0x0fbc "bsf" [gv, ev] [], of 0x0fbd "lzcnt" [gv, ev] [.mark .equal],
      of 0x0fbd "bsr" [gv, ev] [],
      of 0x0f38f6 "adcx" [gy, ey] [.mark .narrow], of 0x0f38f6 "adox" [gy, ey] [.mark .equal],
      of 0x0fc7 "rdrand" [.direct .operand] [.digit 6, .direct, .unmarked],
      of 0x0fc7 "rdseed" [.direct .operand] [.digit 7, .direct, .unmarked],
      of 0x0fc7 "senduipi" [.direct .native] [.digit 6, .direct, .mark .equal, .long],
      of 0x0fc7 "rdpid" [.direct .native] [.digit 7, .direct, .mark .equal]]

-- ================================================================ machine

/-- Instructions without operands that the byte after the code names. -/
def namedForms : List Form :=
  let bare (byte : Nat) (name : String) : Form := of 0x0f01 name [] [.next byte]
  let marked (byte : Nat) (mark : Mark) (name : String) : Form :=
    of 0x0f01 name [] [.next byte, .mark mark]
  let aside (byte : Nat) (name : String) : Form :=
    (of 0x0f01 name [] [.next byte, .mark .none]).noted [.addressed, .segmented]
  [marked 0xc0 .none "enclv", marked 0xc1 .none "vmcall", marked 0xc2 .none "vmlaunch",
    marked 0xc3 .none "vmresume", marked 0xc4 .none "vmxoff", marked 0xc5 .none "pconfig",
    marked 0xc6 .none "wrmsrns",
    of 0x0f01 "wrmsrlist" [] [.next 0xc6, .mark .equal, .long],
    of 0x0f01 "rdmsrlist" [] [.next 0xc6, .mark .different, .long],
    aside 0xc8 "monitor", marked 0xc9 .none "mwait", marked 0xca .none "clac",
    marked 0xcb .none "stac", of 0x0f01 "erets" [] [.next 0xca, .mark .different, .long],
    of 0x0f01 "eretu" [] [.next 0xca, .mark .equal, .long],
    marked 0xcf .none "encls", marked 0xd0 .none "xgetbv", marked 0xd1 .none "xsetbv",
    marked 0xd4 .none "vmfunc", marked 0xd5 .none "xend", marked 0xd6 .none "xtest",
    marked 0xd7 .none "enclu", bare 0xd8 "vmrun", marked 0xd9 .equal "vmgexit",
    marked 0xd9 .different "vmgexit", bare 0xd9 "vmmcall", bare 0xda "vmload",
    bare 0xdb "vmsave", bare 0xdc "stgi", bare 0xdd "clgi", bare 0xde "skinit",
    bare 0xdf "invlpga", marked 0xe8 .none "serialize", marked 0xe8 .equal "setssbsy",
    marked 0xe8 .different "xsusldtrk", marked 0xe9 .different "xresldtrk",
    marked 0xea .equal "saveprevssp", of 0x0f01 "uiret" [] [.next 0xec, .mark .equal, .long],
    of 0x0f01 "testui" [] [.next 0xed, .mark .equal, .long],
    of 0x0f01 "clui" [] [.next 0xee, .mark .equal, .long],
    of 0x0f01 "stui" [] [.next 0xef, .mark .equal, .long],
    marked 0xee .none "rdpkru", marked 0xef .none "wrpkru",
    of 0x0f01 "swapgs" [] [.next 0xf8, .long], bare 0xf9 "rdtscp",
    marked 0xfa .equal "mcommit", aside 0xfa "monitorx", marked 0xfb .none "mwaitx",
    aside 0xfc "clzero", marked 0xfd .none "rdpru",
    of 0x0f01 "rmpadjust" [] [.next 0xfe, .mark .equal, .long],
    of 0x0f01 "rmpupdate" [] [.next 0xfe, .mark .different, .long],
    marked 0xfe .none "invlpgb",
    of 0x0f01 "psmash" [] [.next 0xff, .mark .equal, .long],
    marked 0xff .different "pvalidate", marked 0xff .none "tlbsync"]

/-- Instructions on descriptors, on states that are saved and on lines of
memory. -/
def stateForms : List Form :=
  let table (digit : Nat) (name : String) : Form :=
    (of 0x0f01 name [ev] [.digit digit, .memory]).noted [.branching]
  let saved (digit : Nat) (name : String) : List Form :=
    [of 0x0fae (name ++ "64") [ev] [.digit digit, .memory, .mark .none, .wide, .long],
      of 0x0fae name [ev] [.digit digit, .memory, .mark .none]]
  let other (digit : Nat) (name : String) : List Form :=
    [of 0x0fc7 (name ++ "64") [ev] [.digit digit, .memory, .mark .none, .wide, .long],
      of 0x0fc7 name [ev] [.digit digit, .memory, .mark .none]]
  let base (digit : Nat) (name : String) : Form :=
    of 0x0fae name [.direct .wide] [.digit digit, .direct, .mark .equal, .long]
  [of 0x0f00 "sldt" [ev] [.digit 0], of 0x0f00 "str" [ev] [.digit 1],
    of 0x0f00 "lldt" [ew] [.digit 2], of 0x0f00 "ltr" [ew] [.digit 3],
    of 0x0f00 "verr" [ew] [.digit 4], of 0x0f00 "verw" [ew] [.digit 5],
    table 0 "sgdt", table 1 "sidt", table 2 "lgdt", table 3 "lidt",
    of 0x0f01 "smsw" [ev] [.digit 4], of 0x0f01 "rstorssp" [ev] [.digit 5, .memory, .mark .equal],
    of 0x0f01 "lmsw" [ew] [.digit 6], of 0x0f01 "invlpg" [ev] [.digit 7, .memory],
    of 0x0f02 "lar" [gv, ev] [], of 0x0f03 "lsl" [gv, ev] []] ++
    saved 0 "fxsave" ++ saved 1 "fxrstor" ++
    [of 0x0fae "ldmxcsr" [ev] [.digit 2, .memory, .mark .none],
      of 0x0fae "stmxcsr" [ev] [.digit 3, .memory, .mark .none]] ++
    saved 4 "xsave" ++ saved 5 "xrstor" ++ saved 6 "xsaveopt" ++
    [of 0x0fae "clflush" [ev] [.digit 7, .memory, .mark .none],
      of 0x0fae "clwb" [ev] [.digit 6, .memory, .mark .narrow],
      of 0x0fae "clflushopt" [ev] [.digit 7, .memory, .mark .narrow],
      of 0x0fae "ptwrite" [.sized .wide] [.digit 4, .mark .equal],
      of 0x0fae "clrssbsy" [ev] [.digit 6, .memory, .mark .equal],
      of 0x0fae "lfence" [] [.digit 5, .direct, .mark .none],
      of 0x0fae "mfence" [] [.digit 6, .direct, .mark .none],
      of 0x0fae "sfence" [] [.digit 7, .direct, .mark .none],
      of 0x0fae "pcommit" [] [.next 0xf8, .mark .narrow],
      of 0x0fae "incsspq" [.direct .wide] [.digit 5, .direct, .mark .equal, .wide, .long],
      of 0x0fae "incsspd" [.direct .double] [.digit 5, .direct, .mark .equal],
      of 0x0fae "umonitor" [.direct .address] [.digit 6, .direct, .mark .equal],
      of 0x0fae "tpause" [.direct .wide] [.digit 6, .direct, .mark .narrow],
      of 0x0fae "umwait" [.direct .wide] [.digit 6, .direct, .mark .different],
      base 0 "rdfsbase", base 1 "rdgsbase", base 2 "wrfsbase", base 3 "wrgsbase"] ++
    other 3 "xrstors" ++ other 4 "xsavec" ++ other 5 "xsaves" ++
    [of 0x0fc7 "vmptrld" [ev] [.digit 6, .memory, .mark .none],
      of 0x0fc7 "vmclear" [ev] [.digit 6, .memory, .mark .narrow],
      of 0x0fc7 "vmxon" [ev] [.digit 6, .memory, .mark .equal],
      of 0x0fc7 "vmptrst" [ev] [.digit 7, .memory, .mark .none],
      of 0x0f78 "vmread" [en, gn] [.mark .none], of 0x0f79 "vmwrite" [gn, en] [.mark .none],
      of 0x0f3880 "invept" [gn, ev] [.memory, .mark .narrow],
      of 0x0f3881 "invvpid" [gn, ev] [.memory, .mark .narrow],
      of 0x0f3882 "invpcid" [gn, ev] [.memory, .mark .narrow],
      of 0x0f38f5 "wrussq" [ey, gy] [.memory, .mark .narrow, .wide, .long],
      of 0x0f38f5 "wrussd" [ey, gy] [.memory, .mark .narrow],
      of 0x0f38f6 "wrssq" [ey, gy] [.memory, .mark .none, .wide, .long],
      of 0x0f38f6 "wrssd" [ey, gy] [.memory, .mark .none]]

/-- Hints, and instructions that do nothing. -/
def hintForms : List Form :=
  let reserved (code : Nat) : Form := of code "reservednop" [ev, gv] []
  [of 0x0f0d "prefetch" [ev] [.digit 0, .memory], of 0x0f0d "prefetchw" [ev] [.digit 1, .memory],
    of 0x0f0d "prefetchwt1" [ev] [.digit 2, .memory],
    of 0x0f0d "prefetchreserved" [ev] [.memory],
    of 0x0f18 "prefetchnta" [ev] [.digit 0, .memory],
    of 0x0f18 "prefetcht0" [ev] [.digit 1, .memory],
    of 0x0f18 "prefetcht1" [ev] [.digit 2, .memory],
    of 0x0f18 "prefetcht2" [ev] [.digit 3, .memory],
    of 0x0f1e "endbr64" [] [.next 0xfa, .mark .equal],
    of 0x0f1e "endbr32" [] [.next 0xfb, .mark .equal],
    of 0x0f1e "rdsspq" [.direct .wide] [.digit 1, .direct, .mark .equal, .wide, .long],
    of 0x0f1e "rdsspd" [.direct .double] [.digit 1, .direct, .mark .equal],
    of 0x0f1f "nop" [ev] [.digit 0], reserved 0x0f0d, reserved 0x0f18, reserved 0x0f19,
    reserved 0x0f1a, reserved 0x0f1b, reserved 0x0f1c, reserved 0x0f1d, reserved 0x0f1e,
    reserved 0x0f1f]

/-- Instructions on the state of the processor. -/
def machineForms : List Form :=
  let bare (code : Nat) (name : String) : Form := of code name [] []
  let control : Slot := .register (.only .control)
  let debug : Slot := .register (.only .debug)
  [bare 0x0f05 "syscall", bare 0x0f06 "clts", of 0x0f07 "sysretq" [] [.wide], bare 0x0f07 "sysret",
    bare 0x0f08 "invd", of 0x0f09 "wbnoinvd" [] [.mark .equal], bare 0x0f09 "wbinvd",
    bare 0x0f0b "ud2", bare 0x0f0e "femms",
    of 0x0f20 "mov" [.direct .native, control] [], of 0x0f21 "mov" [.direct .native, debug] [],
    of 0x0f22 "mov" [control, .direct .native] [], of 0x0f23 "mov" [debug, .direct .native] [],
    bare 0x0f30 "wrmsr", bare 0x0f31 "rdtsc", bare 0x0f32 "rdmsr", bare 0x0f33 "rdpmc",
    bare 0x0f34 "sysenter", of 0x0f35 "sysexitq" [] [.wide], bare 0x0f35 "sysexit",
    bare 0x0f37 "getsec", bare 0x0f77 "emms", bare 0x0fa2 "cpuid", bare 0x0faa "rsm",
    (of 0x0fa0 "push" [.given .segment 4] []).noted [.narrowed],
    (of 0x0fa1 "pop" [.given .segment 4] []).noted [.narrowed],
    (of 0x0fa8 "push" [.given .segment 5] []).noted [.narrowed],
    (of 0x0fa9 "pop" [.given .segment 5] []).noted [.narrowed],
    of 0x0fb9 "ud1" [gv, ev] [], of 0x0fff "ud0" [gv, ev] [],
    of 0x0f3af0 "hreset" [ib] [.next 0xc0, .mark .equal]]

/-- The forms of the instructions on whole numbers and on the machine whose
code begins with 0f. -/
def systemForms : List Form :=
  conditionalForms ++ extendingForms ++ bitForms ++ namedForms ++ stateForms ++ hintForms ++
    machineForms

end ClrListing.Native
