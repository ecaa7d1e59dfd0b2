/-
Tools that take paths apart, follow them, and make up new ones.
-/
import ClrListing.Script.Tool.Basic
import ClrListing.Text.Search

namespace ClrListing.Script

open Text

-- ================================================================= parts

/-- A path without the slashes at its end. -/
def withoutSlashes (path : List Char) : List Char :=
  let kept := dropEndWhile (· = '/') path
  if kept.isEmpty && !path.isEmpty then ['/'] else kept

/-- The last name of a path. -/
def baseName (path : List Char) : List Char :=
  let kept := withoutSlashes path
  if kept = ['/'] then kept else (splitAll '/' kept).getLast?.getD []

/-- A path without its last name. -/
def directoryName (path : List Char) : List Char :=
  let kept := withoutSlashes path
  let before := kept.take (kept.length - (baseName path).length)
  if kept = ['/'] then kept else if before.isEmpty then ['.'] else withoutSlashes before

/-- A name without an end, unless it is nothing else. -/
def withoutSuffix (suffix name : List Char) : List Char :=
  if suffix.isSuffixOf name && suffix ≠ name then name.take (name.length - suffix.length)
  else name

/-- Texts that a zero or a line feed ends. -/
def endedTexts (byZero : Bool) (texts : List (List Char)) : List Char :=
  texts.flatMap fun s => s ++ [if byZero then '\x00' else '\n']

/-- Prints the last names of paths. -/
def basename : Tool := fun i =>
  match (Options.of "az" "s" [("suffix", 's'), ("multiple", 'a'), ("zero", 'z')]).parse true
      i.arguments with
  | .error fault => .refused i 1 fault
  | .ok p =>
    let suffix := p.value? 's'
    let show_ (names : List (List Char)) : Completion := .printing i (endedTexts (p.has 'z') names)
    if p.operands.isEmpty then .lacking i 1 "operand" []
    else if p.has 'a' || suffix.isSome then
      show_ (p.operands.map fun path => withoutSuffix (suffix.getD []) (baseName path))
    else match p.operands with
      | [path] => show_ [baseName path]
      | [path, suffix] => show_ [withoutSuffix suffix (baseName path)]
      | _ => .excessive i 1 ((p.operands[2]?).getD [])

/-- Prints paths without their last names. -/
def dirname : Tool := fun i =>
  match (Options.of "z" "" [("zero", 'z')]).parse false i.arguments with
  | .error fault => .refused i 1 fault
  | .ok p =>
    if p.operands.isEmpty then .lacking i 1 "operand" []
    else .printing i (endedTexts (p.has 'z') (p.operands.map directoryName))

-- ================================================================ targets

/-- Where a path leads in the end. -/
def resolved (i : Invocation) (disk : Disk) (path : List Char) : Except FileFault Trail :=
  disk.place i.here (withoutSlashes path) true

/-- Where a path leads, as far as there is anything; the names after that
are taken as they are written. -/
def resolvedAnyway (i : Invocation) (disk : Disk) (path : List Char) : Trail :=
  let start : Trail := if path.head? = some '/' then [] else i.here
  (Disk.steps path).foldl (fun at_ name =>
    if name = ['.'] then at_
    else if name = ['.', '.'] then at_.dropLast
    else
      let next := Disk.join (Disk.pathOf at_) name
      match disk.place [] next true with
      | .ok place => place
      | .error _ => at_ ++ [name]) start

/-- How paths are followed to their end: with nothing that has to be there,
with all but the last name, or with all of it. -/
inductive Following where
  | nothing
  | before
  | whole
  deriving DecidableEq, Repr, Inhabited

/-- Where a path leads. -/
def Following.place (f : Following) (i : Invocation) (disk : Disk) (path : List Char) :
    Except FileFault Trail :=
  match f with
  | .nothing => .ok (resolvedAnyway i disk path)
  | .before => resolved i disk path
  | .whole => (disk.find i.here path true).map Prod.fst

/-- Prints where links lead. -/
def readlink : Tool := fun i =>
  match (Options.of "femnqsvz" "" [("canonicalize", 'f'), ("canonicalize-existing", 'e'),
      ("canonicalize-missing", 'm'), ("no-newline", 'n'), ("quiet", 'q'), ("silent", 's'),
      ("verbose", 'v'), ("zero", 'z')]).parse false i.arguments with
  | .error fault => .refused i 1 fault
  | .ok p =>
    if p.operands.isEmpty then .lacking i 1 "operand" []
    else
      let following := (p.given.filterMap fun g => match g.1 with
        | 'f' => some Following.before
        | 'e' => some .whole
        | 'm' => some .nothing
        | _ => none).getLast?
      let target (path : List Char) : Except FileFault (List Char) :=
        match following with
        | some f => (f.place i i.disk path).map Disk.pathOf
        | none =>
          match i.disk.find i.here path false with
          | .ok (_, .link target) => .ok target
          | .ok _ => .error .invalidInput
          | .error fault => .error fault
      let isSingle := p.operands.length = 1
      let warning := if p.has 'n' && !isSingle then
          "readlink: ignoring --no-newline with multiple arguments\n".toList
        else []
      let results := p.operands.map fun path => (path, target path)
      let texts := results.filterMap fun r => r.2.toOption
      let complaints := results.filterMap fun r => match r.2 with
        | .error fault => some (i.name ++ ": ".toList ++ r.1 ++ ": ".toList ++ fault.words.toList)
        | .ok _ => none
      let text := endedTexts (p.has 'z') texts
      ((Completion.printing i (if p.has 'n' && isSingle then text.dropLast else text)).precededBy 2
        (warning ++ if p.has 'v' then unlines complaints else [])).withStatus
        (if complaints.isEmpty then 0 else 1)

/-- A place as it is seen from a directory. -/
def relativePath (directory place : Trail) : List Char :=
  let common := ((directory.zip place).takeWhile fun names => names.1 = names.2).length
  let names := List.replicate (directory.length - common) ['.', '.'] ++ place.drop common
  if names.isEmpty then ['.'] else ['/'].intercalate names

/-- Prints where paths lead. -/
def realpath : Tool := fun i =>
  match (Options.of "emqszLP" "tb" [("canonicalize-existing", 'e'), ("canonicalize-missing", 'm'),
      ("quiet", 'q'), ("strip", 's'), ("no-symlinks", 's'), ("zero", 'z'), ("logical", 'L'),
      ("physical", 'P'), ("relative-to", 't'), ("relative-base", 'b')]).parse false
      i.arguments with
  | .error fault => .refused i 1 fault
  | .ok p =>
    if p.operands.isEmpty then .lacking i 1 "operand" []
    else
      let following := if p.has 'e' then Following.whole
        else if p.has 'm' then .nothing else .before
      let shown (place : Trail) : List Char :=
        match p.value? 't', p.value? 'b' with
        | some directory, _ => relativePath (resolvedAnyway i i.disk directory) place
        | none, some directory =>
          let base := resolvedAnyway i i.disk directory
          if base.isPrefixOf place then relativePath base place else Disk.pathOf place
        | none, none => Disk.pathOf place
      let done := withEach i 1 p.operands fun path disk =>
        match following.place i disk path with
        | .ok place => .ok (disk, endedTexts (p.has 'z') [shown place])
        | .error fault => .error (path ++ [':', ' '] ++ fault.words.toList)
      if p.has 'q' then done.quietly else done

-- =============================================================== new names

/-- Makes a file or directory that did not exist, and prints its path. -/
def mktemp : Tool := fun i =>
  match (Options.mk "dqutV" "sp" "P" [("directory", 'd'), ("dry-run", 'u'), ("quiet", 'q'),
      ("tmpdir", 'P'), ("suffix", 's')]).parse false i.arguments with
  | .error fault => .refused i 1 fault
  | .ok p =>
    let given := (p.operands.head?).getD "tmp.XXXXXXXXXX".toList
    let inTemporary := p.operands.isEmpty || p.has 't' || p.has 'p' || p.has 'P'
    let (template, suffix) := match p.value? 's' with
      | some suffix => (given, suffix)
      | none =>
        let kept := dropEndWhile (· ≠ 'X') given
        (kept, given.drop kept.length)
    let stem := dropEndWhile (· = 'X') template
    let width := template.length - stem.length
    let standard := (i.environment.lookup "TMPDIR".toList).getD "/tmp".toList
    let directory := match p.value? 'p' <|> p.value? 'P' with
      | some (c :: path) => c :: path
      | _ => standard
    let path (n : Nat) : List Char :=
      let digits := n.repr.toList
      let name := stem ++ List.replicate (width - digits.length) 'a' ++ digits ++ suffix
      if inTemporary then Disk.join directory name else name
    if p.operands.length > 1 then .misusedFor i 1 "too many templates".toList
    else if width < 3 then
      .failing i 1 ("too few X\x27s in template ".toList ++ ticked given)
    else
      let free := (List.range 1000).find? fun n => (i.disk.found? i.here (path n)).isNone
      let chosen := path (free.getD 0)
      let entry := if p.has 'd' then Entry.directory 0o700 else .file [] 0o600
      match i.disk.make i.here chosen entry with
      | .ok disk =>
        { Completion.printing i (unlines [chosen]) with
          disk := if p.has 'u' then i.disk else disk }
      | .error fault =>
        let what := if p.has 'd' then "failed to create directory via template"
          else "failed to create file via template"
        if p.has 'q' then .ofStatus i 1
        else .failing i 1 (cannot what (if inTemporary then Disk.join directory given else given)
          fault)

end ClrListing.Script
