/-
The command line: its options, and the run that they ask for.
-/
import ClrListing.Listing.Report
import ClrListing.Lowering.External
import ClrListing.Native.Snapshot.Json
import ClrListing.Script.Launch

namespace ClrListing

open Listing Lowering Native Syntax

-- ============================================================== options

/-- A command line. -/
structure CommandLine where
  /-- The source file. -/
  file : String
  /-- Methods are compiled as they stand. -/
  disableOptimization : Bool
  /-- The stages are shown, and records of detail. -/
  isVerbose : Bool
  /-- The snapshot that native code is read from. -/
  runtime : Option String
  /-- The program that compiles the source. -/
  compiler : Option String
  /-- The modules that it may refer to. -/
  references : List String
  deriving DecidableEq, Repr, Inhabited

/-- What is wrong with a command line. -/
inductive UsageFault where
  | unknownOption (argument : String)
  | valueMissing (option : String)
  | givenTwice (option : String)
  | fileMissing
  deriving DecidableEq, Repr, Inhabited

/-- The wording of a fault. -/
def UsageFault.message : UsageFault → String
  | unknownOption argument => "unexpected argument '" ++ argument ++ "' found"
  | valueMissing option => "a value is required for '" ++ option ++ "' but none was supplied"
  | givenTwice option => "the argument '" ++ option ++ "' cannot be used multiple times"
  | fileMissing => "the required argument '--file <FILE>' was not provided"

namespace CommandLine

/-- An option. -/
inductive Setting where
  | file
  | disableOptimization
  | verbose
  | runtime
  | compiler
  | reference
  deriving DecidableEq, Repr, Inhabited

namespace Setting

/-- The option of a name. -/
def ofName? : String → Option Setting
  | "-f" | "--file" => some file
  | "-d" | "--disable-optimization" => some disableOptimization
  | "-v" | "--verbose" => some verbose
  | "--runtime" => some runtime
  | "--csc" => some compiler
  | "-r" | "--reference" => some reference
  | _ => none

/-- Whether an option has a value. -/
def hasValue : Setting → Bool
  | disableOptimization | verbose => false
  | _ => true

end Setting

/-- The options of a command line with their values. -/
def settings : List String → Except UsageFault (List (Setting × String))
  | [] => .ok []
  | argument :: rest =>
    match Setting.ofName? argument with
    | some option =>
      if option.hasValue then
        match rest with
        | [] => .error (.valueMissing argument)
        | value :: rest => do return (option, value) :: (← settings rest)
      else do return (option, "") :: (← settings rest)
    | none => do
      let some (name, value) := Text.splitOnce ['='] argument.toList
        | throw (.unknownOption argument)
      match Setting.ofName? (String.ofList name) with
      | some option =>
        if option.hasValue then return (option, String.ofList value) :: (← settings rest)
        else throw (.unknownOption argument)
      | none => throw (.unknownOption argument)

/-- The values of an option. -/
def valuesOf (option : Setting) (given : List (Setting × String)) : List String :=
  (given.filter fun s => s.1 = option).map Prod.snd

/-- The value of an option that may be given once. -/
def valueOf (option : Setting) (name : String) (given : List (Setting × String)) :
    Except UsageFault (Option String) :=
  match valuesOf option given with
  | [] => .ok none
  | [value] => .ok (some value)
  | _ => .error (.givenTwice name)

/-- The command line of arguments. -/
def ofArguments (arguments : List String) : Except UsageFault CommandLine := do
  let given ← settings arguments
  let file ← valueOf .file "--file <FILE>" given
  let isPlain ← valueOf .disableOptimization "--disable-optimization" given
  let isVerbose ← valueOf .verbose "--verbose" given
  let runtime ← valueOf .runtime "--runtime <SNAPSHOT>" given
  let compiler ← valueOf .compiler "--csc <PROGRAM>" given
  let some file := file | throw .fileMissing
  return ⟨file, isPlain.isSome, isVerbose.isSome, runtime, compiler, valuesOf .reference given⟩

-- ================================================================== run

/-- What was read of files, by their paths. -/
abbrev Files := List (String × Except FileFault (List UInt8))

/-- What was read of a file. -/
def Files.get (files : Files) (path : String) : Except FileFault (List UInt8) :=
  (files.lookup path).getD (.error .notFound)

/-- The files that a run reads. -/
def inputs (c : CommandLine) : List String := c.file :: c.runtime.toList

/-- The least level of the records that are shown. -/
def logLevel (c : CommandLine) : LogLevel := if c.isVerbose then .debug else .info

/-- The warnings about options. -/
def warnings (c : CommandLine) : Log :=
  (if SourceFile.isSource c.file then []
    else [⟨.warn, c.file ++ " does not look like a C# source file"⟩])
  ++ (if c.compiler.isNone && !c.references.isEmpty then
      [⟨.warn, "--reference is only used together with --csc"⟩]
    else [])

/-- How the source is compiled. -/
def compile (c : CommandLine) (computer : Computer) :
    String → Tree → CompileOptions → Action Assembly :=
  match c.compiler with
  | some program => ExternalCompiler.compile ⟨program, c.references, []⟩ computer
  | none => Lowering.compile

/-- The snapshot that native code is read from, if one is named. -/
def snapshot (c : CommandLine) (files : Files) : Action (Option Snapshot) :=
  match c.runtime with
  | some path => do return some (← Snapshot.ofFile path (files.get path))
  | none => return none

/-- What a report is made with. -/
def toolchain (c : CommandLine) (computer : Computer) (snapshot : Option Snapshot) :
    Toolchain Prepared :=
  ⟨c.compile computer, (snapshot.map Snapshot.host).getD Host.none,
    (snapshot.map Snapshot.attach).getD attachNone, decode, fun _ => 0⟩

/-- What a run shows: the report, and why it ended early if it did. -/
structure Shown where
  report : Report
  failure : Option (String × Error)

/-- Runs a command line. -/
def run (c : CommandLine) (computer : Computer) (files : Files) : Action Shown := do
  Run.log c.warnings
  match ← Run.attempt (c.snapshot files) with
  | .error e => return ⟨[], some ("failed to load the runtime snapshot", e)⟩
  | .ok snapshot =>
    let (result, session) ← Run.within (Session.start [])
      (reportFile (c.toolchain computer snapshot) ⟨c.disableOptimization, c.isVerbose⟩ c.file
        (files.get c.file))
    match result with
    | .ok () => return ⟨session.report, none⟩
    | .error e => return ⟨session.report, some ("failed to disassemble " ++ c.file, e)⟩

end CommandLine

end ClrListing
