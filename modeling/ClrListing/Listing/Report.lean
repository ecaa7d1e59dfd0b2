/-
From source text to the listing of everything it declares.

A report starts with its stages, if they are wanted: each is announced and
then told to be done or to have failed. The runtime and the listings of
the declarations follow. A failure of a stage, or a runtime that cannot be
looked into, ends the report; what is wrong with one method does not.

A source file is told by its path, and so is the name of the module that
it is compiled to.
-/
import ClrListing.Declaration.Forest
import ClrListing.Diagnostic
import ClrListing.Listing.Method
import ClrListing.Lowering.Compile
import ClrListing.Text.Search

namespace ClrListing.SourceFile

open Text

/-- The name of the module of a source without a file name. -/
def defaultModule : String := "jitscope"

/-- The name of the module that a source file is compiled to: the file
name without its extension. -/
def moduleName (path : String) : String :=
  match Path.stem? path.toList with
  | some stem => if stem.isEmpty then defaultModule else String.ofList stem
  | none => defaultModule

/-- Whether a path has the extension of source files, in any mix of letter
cases. -/
def isSource (path : String) : Bool :=
  match Path.extension? path.toList with
  | some extension => extension.map Severity.lowerAscii = ['c', 's']
  | none => false

end ClrListing.SourceFile

namespace ClrListing.Listing

open Binding Lowering Metadata Native Syntax

-- =============================================================== stages

/-- A stage on the way to the listing. -/
inductive Stage where
  | parsingFile
  | parsing
  | compiling
  | analyzing
  deriving DecidableEq, Repr, Inhabited

/-- The name of a stage. -/
def Stage.label : Stage → String
  | parsingFile => "Parsing from file"
  | parsing => "Parsing"
  | compiling => "Compiling"
  | analyzing => "Analyzing"

-- ============================================================== reports

/-- A part of a report. -/
inductive Part where
  /-- A stage has started. -/
  | started (stage : Stage)
  /-- The stage is done, after so many milliseconds. -/
  | done (elapsed : Nat)
  /-- The stage has failed. -/
  | failed
  /-- The stages are over. -/
  | separator
  | banner (info : RuntimeInfo)
  /-- The listing of a declaration. -/
  | block (lines : List String)
  deriving DecidableEq, Repr, Inhabited

/-- The line that tells of the runtime. -/
def banner (info : RuntimeInfo) : String :=
  "; " ++ info.flavor ++ " CLR " ++ info.version ++ " (" ++ info.module ++ ") on "
    ++ info.architecture.name ++ "."

/-- The text of a part. -/
def Part.text : Part → String
  | started stage => "; " ++ stage.label ++ " ... "
  | done elapsed => "done. (" ++ elapsed.repr ++ " ms)\n"
  | failed => "failed!\n"
  | separator => "\n"
  | banner info => Listing.banner info ++ "\n"
  | block lines => "\n" ++ textOf lines

/-- A report as its parts. -/
abbrev Report := List Part

/-- The text of a report. -/
def Report.text (r : Report) : String := String.join (r.map Part.text)

-- ============================================================ toolchain

/-- What a report is made with. -/
structure Toolchain (σ : Type) where
  /-- Compiles source to a module of a name. -/
  compile : String → Tree → CompileOptions → Action Assembly
  /-- Executes the module. -/
  host : Host σ
  /-- Gives the runtime that executes it. -/
  attach : Action Runtime
  decoder : Decoder
  /-- How many milliseconds a stage takes. -/
  elapsed : Stage → Nat

/-- How a report is to be made. -/
structure ReportOptions where
  /-- Methods are compiled as they stand. -/
  disableOptimization : Bool
  /-- The stages are part of the report. -/
  isVerbose : Bool
  deriving DecidableEq, Repr, Inhabited

/-- A report in the making, and the state of the process that executes the
module. -/
structure Session (σ : Type) where
  report : Report
  host : σ
  deriving Repr, Inhabited

namespace Session

/-- Nothing reported yet. -/
def start (host : σ) : Session σ := ⟨[], host⟩

end Session

-- ================================================================ steps

/-- Adds a part. -/
def write (part : Part) : Run (Session σ) Unit := do
  let s ← Run.state
  Run.setState { s with report := s.report ++ [part] }

/-- Adds a part that only verbose reports have. -/
def note (o : ReportOptions) (part : Part) : Run (Session σ) Unit :=
  if o.isVerbose then write part else return ()

/-- Runs a stage and reports on it. -/
def runStage (t : Toolchain σ) (o : ReportOptions) (stage : Stage) (run : Run σ α) :
    Run (Session σ) α := do
  note o (.started stage)
  let (result, host) ← Run.within (← Run.state).host run
  Run.setState { (← Run.state) with host := host }
  match result with
  | .ok value =>
    Run.info (stage.label ++ " finished in " ++ (t.elapsed stage).repr ++ " ms")
    note o (.done (t.elapsed stage))
    return value
  | .error e =>
    note o .failed
    throw e

/-- The nodes of what a source declares, all methods of which that are
listed have native code then. -/
def analyze (host : Host σ) (assembly : Assembly) (tree : Tree) : Run σ (List Node) := do
  let (members, _) ← Run.within Resolver.start
    (Resolver.resolve assembly (Declaration.forest tree.root))
  Node.forest host assembly (← members)

/-- Adds the listing of a node. -/
def writeBlock (source : Source) (node : Node) : Run (Session σ) Unit := do
  let block := source.block node
  Run.log block.log
  write (.block block.lines)

-- ============================================================= the whole

/-- Reports on source that is parsed. -/
def reportTree (t : Toolchain σ) (o : ReportOptions) (module : String) (tree : Tree) :
    Run (Session σ) Unit := do
  let assembly ← runStage t o .compiling
    (Run.act (t.compile module tree ⟨o.disableOptimization⟩))
  let nodes ← runStage t o .analyzing (analyze t.host assembly tree)
  note o .separator
  let runtime ← Run.act t.attach
  write (.banner runtime.info)
  let source := Source.ofHost t.host (← Run.state).host assembly runtime t.decoder
  nodes.forM (writeBlock source)
  Run.info ("Disassembled " ++ nodes.length.repr ++ " top-level declaration(s) of " ++ module)

/-- Reports on source text, compiled to a module of a name. -/
def reportSource (t : Toolchain σ) (o : ReportOptions) (module source : String) :
    Run (Session σ) Unit := do
  let tree ← runStage t o .parsing (Run.act (Tree.parse source))
  reportTree t o module tree

/-- Reports on what a file holds, if it can be read; the module takes its
name from the file. -/
def reportFile (t : Toolchain σ) (o : ReportOptions) (path : String)
    (content : Except FileFault (List UInt8)) : Run (Session σ) Unit := do
  let tree ← runStage t o .parsingFile (Run.act (Tree.parseFile content))
  reportTree t o (SourceFile.moduleName path) tree

end ClrListing.Listing
