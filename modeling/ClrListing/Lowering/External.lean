/-
Compiling by running a compiler program.

The program finds the source in a directory of its own and leaves the
module there. What it prints is searched for diagnostics, the output
before the errors; other lines mean nothing.
-/
import ClrListing.Image.Module
import ClrListing.Lowering.Compile
import ClrListing.Process
import ClrListing.Text.Utf8

namespace ClrListing.Lowering

open Text

/-- A compiler program. -/
structure ExternalCompiler where
  program : String
  /-- The paths of the modules that the source may refer to. -/
  references : List String
  /-- What stands before the other arguments. -/
  arguments : List String
  deriving DecidableEq, Repr, Inhabited

namespace ExternalCompiler

/-- The compiler that is run unless another is named. -/
def standard : ExternalCompiler := ⟨"csc", [], []⟩

/-- The directory of a run. -/
def directory : String := "/tmp/module"

/-- A file of a run: in the directory, unless the module is named by a
path from the root. -/
def filePath (module extension : String) : String :=
  if module.startsWith "/" then module ++ extension else directory ++ "/" ++ module ++ extension

/-- Where the source is. -/
def sourcePath (module : String) : String := filePath module ".cs"

/-- Where the module is to be. -/
def modulePath (module : String) : String := filePath module ".dll"

/-- The arguments of a run. -/
def argumentsFor (c : ExternalCompiler) (module : String) (options : CompileOptions) :
    List String :=
  c.arguments
    ++ ["-nologo", "-target:library",
      if options.disableOptimization then "-optimize-" else "-optimize+",
      "-out:" ++ modulePath module]
    ++ c.references.map ("-reference:" ++ ·)
    ++ [sourcePath module]

/-- The diagnostics in what a program prints. -/
def diagnosticsIn (printed : List UInt8) : Diagnostics :=
  (lines (Utf8.decodeLossy printed)).filterMap fun line =>
    Diagnostic.parseLine (String.ofList line)

/-- The diagnostics of a run. A program that fails without telling of an
error is an error. -/
def diagnosticsOf (c : ExternalCompiler) (o : Outcome) : Diagnostics :=
  let printed := diagnosticsIn o.output ++ diagnosticsIn o.errors
  if !o.status.isOk && !printed.hasErrors then
    printed ++ [.error "CMD0001" ("'" ++ c.program ++ "' exited with " ++ o.status.display)]
  else printed

/-- The disk of a computer with the directory of a run and the source. -/
def prepare (computer : Computer) (module : String) (source : List UInt8) :
    Except FileFault Disk := do
  let made ← computer.disk.makeDirectory [] (Octets.ofString directory)
  made.write [] (Octets.ofString (sourcePath module)) source

/-- Compiles a parsed source file. -/
def compile (c : ExternalCompiler) (computer : Computer) (module : String) (tree : Syntax.Tree)
    (options : CompileOptions) : Action Assembly := do
  let arguments := c.argumentsFor module options
  let disk ← Run.orFault (prepare computer module (Utf8.encode tree.source.toList))
  Run.debug ("Running " ++ c.program ++ " " ++ String.intercalate " " arguments)
  let outcome ← Run.orFault (computer.run c.program arguments disk)
  let diagnostics := c.diagnosticsOf outcome
  if diagnostics.hasErrors then throw (.compilation diagnostics)
  Run.log ((diagnostics.filter fun d => d.severity = .warning).map fun d => ⟨.warn, d.display⟩)
  let image ← Run.orFault (outcome.disk.read [] (Octets.ofString (modulePath module)))
  let assembly ← Image.load module image
  Run.info ("Loaded compiled module '" ++ module ++ "': " ++ assembly.types.length.repr
    ++ " types, " ++ assembly.methods.length.repr ++ " methods")
  return assembly

end ExternalCompiler

end ClrListing.Lowering
