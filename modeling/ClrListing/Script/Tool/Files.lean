/-
Tools that change what stands on the disk: files, directories, links and
modes.
-/
import ClrListing.Script.FileMode
import ClrListing.Script.Tool.DateText
import ClrListing.Script.Tool.Naming

namespace ClrListing.Script

open Text

/-- The mode of new files or directories, of which a mask takes something
away. -/
def Invocation.newMode (i : Invocation) (mode : Mode) : Mode := mode &&& (Mode.full - i.mask)

/-- Texts that are printed only if that is asked for. -/
def whenAsked (isAsked : Bool) (texts : List (List Char)) : List Char :=
  if isAsked then unlines texts else []

/-- Two paths with a sign between them. -/
def arrow (sign : String) (a b : List Char) : List Char :=
  ticked a ++ ' ' :: sign.toList ++ ' ' :: ticked b

-- ============================================================ directories

/-- Makes the directories on a path that are missing, and gives their
paths. -/
def makeMissing (i : Invocation) (mode : Mode) : (before : List Char) → List (List Char) →
    Disk → Except (List Char × FileFault) (Disk × List (List Char))
  | _, [], disk => .ok (disk, [])
  | before, name :: rest, disk =>
    let path := before ++ name
    match disk.found? i.here path with
    | some (.directory _) => makeMissing i mode (path ++ ['/']) rest disk
    | some _ => .error (path, if rest.isEmpty then .alreadyExists else .notADirectory)
    | none =>
      let mode := if rest.isEmpty then mode else i.newMode 0o777
      match disk.make i.here path (.directory mode) with
      | .error fault => .error (path, fault)
      | .ok disk => (makeMissing i mode (path ++ ['/']) rest disk).map fun r => (r.1, path :: r.2)

/-- Makes a directory with all that is missing before it. -/
def makeWhole (i : Invocation) (mode : Mode) (path : List Char) (disk : Disk) :
    Except (List Char × FileFault) (Disk × List (List Char)) :=
  let names := (splitAll '/' path).filter fun name => !name.isEmpty
  if names.isEmpty && path.isEmpty then .error ([], .notFound)
  else makeMissing i mode (if path.head? = some '/' then ['/'] else []) names disk

/-- The mode that an option asks for, if it is one. -/
def askedMode? (i : Invocation) (p : Parsed) (standard : Mode) : Option Mode :=
  match p.value? 'm' with
  | none => some (i.newMode standard)
  | some text => Mode.changed? i.mask false text 0o777

/-- Makes directories. -/
def mkdir : Tool := fun i =>
  match (Options.of "pvZ" "m" [("parents", 'p'), ("verbose", 'v'), ("mode", 'm')]).parse false
      i.arguments with
  | .error fault => .refused i 1 fault
  | .ok p =>
    if p.operands.isEmpty then .lacking i 1 "operand" []
    else match askedMode? i p 0o777 with
      | none => .failing i 1 ("invalid mode ".toList ++ ticked ((p.value? 'm').getD []))
      | some mode => withEach i 1 p.operands fun path disk =>
        let told (path : List Char) : List Char := "mkdir: created directory ".toList ++ ticked path
        let made := if p.has 'p' then makeWhole i mode path disk
          else match disk.make i.here (withoutSlashes path) (.directory mode) with
            | .ok disk => .ok (disk, [path])
            | .error fault => .error (path, fault)
        match made with
        | .ok (disk, paths) => .ok (disk, whenAsked (p.has 'v') (paths.map told))
        | .error (path, fault) => .error (cannot "cannot create directory" path fault)

/-- The paths of a directory and of those before it, which are named on the
path. -/
def pathsUp : (bound : Nat) → List Char → List (List Char)
  | 0, path => [path]
  | bound + 1, path =>
    let before := directoryName path
    if before = ['.'] || before = ['/'] then [path] else path :: pathsUp bound before

/-- Takes empty directories away. -/
def rmdir : Tool := fun i =>
  match (Options.of "pvi" "" [("parents", 'p'), ("verbose", 'v'),
      ("ignore-fail-on-non-empty", 'i')]).parse false i.arguments with
  | .error fault => .refused i 1 fault
  | .ok p =>
    let told (path : List Char) : List Char :=
      whenAsked (p.has 'v') ["rmdir: removing directory, ".toList ++ ticked path]
    let removing (what : String) (path : List Char) : Deed := fun disk =>
      match disk.removeDirectory i.here path with
      | .ok disk => .ok (disk, told path)
      | .error fault =>
        if p.has 'i' && fault = .directoryNotEmpty then .ok (disk, told path)
        else .error (cannot what path fault)
    let whole (path : List Char) : Deed := fun disk => do
      let (disk, text) ← removing "failed to remove" path disk
      ((pathsUp path.length (withoutSlashes path)).drop 1).foldlM
        (fun (disk, text) path => do
          let (disk, more) ← removing "failed to remove directory" path disk
          return (disk, text ++ more)) (disk, text)
    if p.operands.isEmpty then .lacking i 1 "operand" []
    else withEach i 1 p.operands (if p.has 'p' then whole else removing "failed to remove")

-- =============================================================== removing

/-- The places below one with it, each before what is in it. -/
def placesBelow (disk : Disk) (place : Trail) : List Trail :=
  (disk.entries.map Prod.fst).filter fun q => place.isPrefixOf q

/-- Takes what stands at a place away with all below it, and tells what that
is, what is in a directory first. -/
def removed (disk : Disk) (bound : Nat) (place : Trail) (path : List Char) : List (List Char) :=
  match bound with
  | 0 => []
  | bound + 1 =>
    match disk.at? place with
    | some (.directory _) =>
      (disk.names place).flatMap (fun name =>
        removed disk bound (place ++ [name]) (Disk.join path name))
        ++ ["removed directory ".toList ++ ticked path]
    | _ => ["removed ".toList ++ ticked path]

/-- How deep directories are gone through. -/
def treeLimit : Nat := 256

/-- Takes files away, and directories if it is asked to. -/
def rm : Tool := fun i =>
  match (Options.mk "rRfidvIn1" "" "" [("recursive", 'r'), ("force", 'f'), ("dir", 'd'),
      ("verbose", 'v'), ("no-preserve-root", 'n'), ("preserve-root", 'r'),
      ("one-file-system", '1'), ("interactive", 'i')]).parse false i.arguments with
  | .error fault => .refused i 1 fault
  | .ok p =>
    let isDeep := p.has 'r' || p.has 'R'
    let told (lines : List (List Char)) : List Char := whenAsked (p.has 'v') lines
    if p.operands.isEmpty then
      if p.has 'f' then .ofStatus i 0 else .lacking i 1 "operand" []
    else withEach i 1 p.operands fun path disk =>
      let name := baseName path
      if isDeep && (name = ['.'] || name = ['.', '.']) then
        .error ("refusing to remove \x27.\x27 or \x27..\x27 directory: skipping ".toList
          ++ ticked path)
      else match disk.find i.here path false with
        | .ok ([], _) =>
          if isDeep && !p.has 'n' then
            .error ("it is dangerous to operate recursively on ".toList ++ ticked path
              ++ "\nrm: use --no-preserve-root to override this failsafe".toList)
          else .error (cannot "cannot remove" path .isADirectory)
        | .ok (place, .directory _) =>
          if isDeep then
            .ok (disk.erase place, told (removed disk treeLimit place (withoutSlashes path)))
          else if p.has 'd' then
            match disk.removeDirectory i.here path with
            | .ok disk => .ok (disk, told ["removed directory ".toList ++ ticked path])
            | .error fault => .error (cannot "cannot remove" path fault)
          else .error (cannot "cannot remove" path .isADirectory)
        | .ok (place, _) => .ok (disk.erase place, told ["removed ".toList ++ ticked path])
        | .error fault =>
          if p.has 'f' && (fault = .notFound || fault = .notADirectory) then .ok (disk, [])
          else .error (cannot "cannot remove" path fault)

/-- Takes one file away. -/
def unlink : Tool := fun i =>
  match (Options.of "" "" []).parse false i.arguments with
  | .error fault => .refused i 1 fault
  | .ok p =>
    match p.operands with
    | [] => .lacking i 1 "operand" []
    | [path] => withEach i 1 [path] fun path disk =>
      changing "cannot unlink" path (disk.remove i.here path)
    | _ :: extra :: _ => .excessive i 1 extra

-- ================================================================ journeys

/-- Where things are brought: into a directory, to a path, or into it if it
is a directory. -/
inductive Goal where
  | inside (directory : List Char)
  | exactly (path : List Char)
  | either (path : List Char)
  deriving DecidableEq, Repr, Inhabited

/-- The path that something is brought to. -/
def Goal.pathFor (i : Invocation) (disk : Disk) (source : List Char) : Goal → List Char
  | inside directory => Disk.join directory (baseName source)
  | exactly path => path
  | either path =>
    if (disk.found? i.here path).any Entry.isDirectory then Disk.join path (baseName source)
    else path

/-- The things that operands name, and where they are brought, or the
complaint about them. -/
def journey (i : Invocation) (p : Parsed) :
    Except Completion (List (List Char) × Goal) :=
  let directoryFault (path : List Char) : Option FileFault :=
    match i.disk.find i.here path true with
    | .ok (_, .directory _) => none
    | .ok _ => some .notADirectory
    | .error fault => some fault
  match p.value? 't' with
  | some directory =>
    match directoryFault directory with
    | some fault => .error (.failing i 1 (cannot "target directory" directory fault))
    | none =>
      if p.operands.isEmpty then .error (.lacking i 1 "file operand" [])
      else .ok (p.operands, .inside directory)
  | none =>
    match p.operands with
    | [] => .error (.lacking i 1 "file operand" [])
    | [_] => .error (.lacking i 1 "destination file operand" p.operands)
    | [source, target] =>
      .ok ([source], if p.has 'T' then .exactly target else .either target)
    | operands =>
      let target := operands.getLast?.getD []
      if p.has 'T' then .error (.excessive i 1 ((operands[2]?).getD []))
      else match directoryFault target with
        | some fault => .error (.failing i 1 (cannot "target" target fault))
        | none => .ok (operands.dropLast, .inside target)

/-- Brings several things somewhere, one after the other. -/
def withJourney (i : Invocation) (p : Parsed) (deed : List Char → List Char → Deed) :
    Completion :=
  match journey i p with
  | .error complaint => complaint
  | .ok (sources, goal) => withEach i 1 sources fun source disk =>
    deed source (goal.pathFor i disk source) disk

/-- The complaint that two paths lead to the same file. -/
def sameFile (source target : List Char) : List Char :=
  ticked source ++ " and ".toList ++ ticked target ++ " are the same file".toList

/-- The options of tools that bring things somewhere. -/
def journeyOptions (letters : String) (more : List (String × Char)) : Options :=
  .mk letters "tS" "" ([("force", 'f'), ("interactive", 'i'), ("no-clobber", 'n'),
    ("verbose", 'v'), ("no-target-directory", 'T'), ("target-directory", 't'),
    ("suffix", 'S')] ++ more)

-- ================================================================ copying

/-- Copies what stands at a place, with all below it, to another place: the
disk then, and what was brought where. -/
def copyBelow (i : Invocation) (keepsMode : Bool) : (bound : Nat) → (source goal : Trail) →
    (sourcePath goalPath : List Char) → Disk → Disk × List (List Char)
  | 0, _, _, _, _, disk => (disk, [])
  | bound + 1, source, goal, sourcePath, goalPath, disk =>
    let mode (m : Mode) : Mode := if keepsMode then m else i.newMode m
    let line := arrow "->" sourcePath goalPath
    match disk.at? source with
    | none => (disk, [])
    | some (.directory m) =>
      let made := match disk.at? goal with
        | some (.directory _) => disk
        | _ => disk.put goal (.directory (mode m))
      (disk.names source).foldl (fun (disk, lines) name =>
        let (disk, more) := copyBelow i keepsMode bound (source ++ [name]) (goal ++ [name])
          (Disk.join sourcePath name) (Disk.join goalPath name) disk
        (disk, lines ++ more)) (made, [line])
    | some (.file content m) =>
      (match disk.at? goal with
        | some (.file _ _) => disk.setContent goal fun _ => content
        | _ => disk.put goal (.file content (mode m)), [line])
    | some entry => (disk.put goal entry, [line])

/-- Copies files, and directories if it is asked to. -/
def cp : Tool := fun i =>
  match (journeyOptions "rRafpvnTPdLHilsuxbz" [("recursive", 'r'), ("archive", 'a'),
      ("no-dereference", 'P'), ("dereference", 'L'), ("link", 'l'), ("symbolic-link", 's'),
      ("update", 'u'), ("preserve", 'p'), ("parents", 'z')]).parse false i.arguments with
  | .error fault => .refused i 1 fault
  | .ok p =>
    let isDeep := p.has 'r' || p.has 'R' || p.has 'a'
    let keepsLinks := (isDeep || p.has 'P' || p.has 'd') && !p.has 'L'
    let keepsMode := p.has 'p' || p.has 'a'
    let told (source target : List Char) : List Char :=
      whenAsked (p.has 'v') [arrow "->" source target]
    let warning := if p.has 'n' then
        ("cp: warning: behavior of -n is non-portable and may change in future; " ++
          "use --update=none instead\n").toList
      else []
    let done := withJourney i p fun source target disk =>
      match disk.find i.here source (!keepsLinks) with
      | .error fault => .error (cannot "cannot stat" source fault)
      | .ok (place, .directory _) =>
        if !isDeep then
          .error ("-r not specified; omitting directory ".toList ++ ticked source)
        else match disk.place i.here (withoutSlashes target) true with
          | .error fault => .error (cannot "cannot create directory" target fault)
          | .ok goal =>
            let isOther := (disk.at? goal).any fun e => !e.isDirectory
            if isOther then
              .error ("cannot overwrite non-directory ".toList ++ ticked target
                ++ " with directory ".toList ++ ticked source)
            else if place.isPrefixOf goal then
              .error ("cannot copy a directory, ".toList ++ ticked source ++ ", into itself, ".toList
                ++ ticked target)
            else
              let (disk, lines) := copyBelow i keepsMode treeLimit place goal source target disk
              .ok (disk, whenAsked (p.has 'v') lines)
      | .ok (place, entry) =>
        match disk.place i.here target (!entry.isLink) with
        | .error fault =>
          let fault := if target.getLast? = some '/' then .notADirectory else fault
          .error (cannot "cannot create regular file" target fault)
        | .ok goal =>
          match disk.at? goal with
          | some (.directory _) =>
            .error ("cannot overwrite directory ".toList ++ ticked target
              ++ " with non-directory".toList)
          | found =>
            if goal = place then .error (sameFile source target)
            else if found.isSome && p.has 'n' then .ok (disk, [])
            else if p.has 's' then
              if found.isSome && !p.has 'f' then
                .error (cannot ("cannot create symbolic link " ++ String.ofList (ticked target)
                  ++ " to") source .alreadyExists)
              else .ok (disk.put goal (.link source), told source target)
            else
              let (disk, _) := copyBelow i keepsMode 1 place goal source target disk
              .ok (disk, told source target)
    done.precededBy 2 warning

/-- Moves files and directories. -/
def mv : Tool := fun i =>
  match (journeyOptions "finvTub" [("update", 'u'), ("backup", 'b')]).parse false i.arguments with
  | .error fault => .refused i 1 fault
  | .ok p =>
    withJourney i p fun source target disk =>
      let isShort := source.getLast? ≠ some '/'
      match disk.find i.here (withoutSlashes source) false with
      | .error fault => .error (cannot "cannot stat" source fault)
      | .ok (place, entry) =>
        let failed (fault : FileFault) : Except (List Char) (Disk × List Char) :=
          .error (cannot ("cannot move " ++ String.ofList (ticked source) ++ " to") target fault)
        match disk.place i.here (withoutSlashes target) false with
        | .error fault => failed fault
        | .ok goal =>
          let found := disk.at? goal
          let intoSelf := place.isPrefixOf goal && entry.isDirectory
          if !isShort && !entry.isDirectory then .error (cannot "cannot stat" source .notADirectory)
          else if intoSelf then
            .error ("cannot move ".toList ++ ticked source ++ " to a subdirectory of itself, ".toList
              ++ ticked target)
          else if place = goal then .error (sameFile source target)
          else if found.isSome && p.has 'n' then .error ("not replacing ".toList ++ ticked target)
          else match found, entry.isDirectory with
            | some (.directory _), true =>
              if (disk.names goal).isEmpty then moved p source target place goal disk
              else failed .directoryNotEmpty
            | some (.directory _), false =>
              .error ("cannot overwrite directory ".toList ++ ticked target
                ++ " with non-directory".toList)
            | some _, true =>
              .error ("cannot overwrite non-directory ".toList ++ ticked target
                ++ " with directory ".toList ++ ticked source)
            | none, false =>
              if target.getLast? = some '/' then failed .notADirectory
              else moved p source target place goal disk
            | _, _ => moved p source target place goal disk
where
  moved (p : Parsed) (source target : List Char) (place goal : Trail) (disk : Disk) :
      Except (List Char) (Disk × List Char) :=
    .ok (disk.move place goal,
      whenAsked (p.has 'v') ["renamed ".toList ++ arrow "->" source target])

/-- The options of `install`. -/
def installOptions : Options :=
  { journeyOptions "dDvTpsCcb" [("directory", 'd'), ("mode", 'm'), ("owner", 'o'),
      ("group", 'g')] with valued := "tSmog" }

/-- Copies programs to where they are run. -/
def install : Tool := fun i =>
  match installOptions.parse false i.arguments with
  | .error fault => .refused i 1 fault
  | .ok p =>
    match (p.value? 'm').map fun text => Mode.changed? 0 false text 0 with
    | some none => .failing i 1 ("invalid mode ".toList ++ ticked ((p.value? 'm').getD []))
    | asked =>
      let mode := (asked.getD none).getD 0o755
      let making (path : List Char) : Deed := fun disk =>
        match makeWhole i mode path disk with
        | .ok (disk, paths) => .ok (disk, whenAsked (p.has 'v') (paths.map fun path =>
            "install: creating directory ".toList ++ ticked path))
        | .error (path, fault) => .error (cannot "cannot create directory" path fault)
      if p.has 'd' then
        if p.operands.isEmpty then .lacking i 1 "file operand" []
        else withEach i 1 p.operands making
      else withJourney i p fun source target disk =>
        match disk.find i.here source true with
        | .error fault => .error (cannot "cannot stat" source fault)
        | .ok (_, .directory _) => .error ("omitting directory ".toList ++ ticked source)
        | .ok (place, _) => do
          let (disk, text) ← if p.has 'D' then making (directoryName target) disk
            else .ok (disk, [])
          match disk.place i.here target true with
          | .error fault => .error (cannot "cannot create regular file" target fault)
          | .ok goal =>
            let (disk, lines) := copyBelow i true 1 place goal source target disk
            .ok (disk.setMode goal fun _ => mode, text ++ whenAsked (p.has 'v') lines)

-- ================================================================== links

/-- The options of `ln`. -/
def linkOptions : Options :=
  .mk "sfnvrTibLPFd" "tS" "" [("symbolic", 's'), ("force", 'f'), ("no-dereference", 'n'),
    ("relative", 'r'), ("logical", 'L'), ("physical", 'P'), ("interactive", 'i'),
    ("verbose", 'v'), ("no-target-directory", 'T'), ("target-directory", 't'), ("suffix", 'S')]

/-- Makes links, or files that hold the same. -/
def ln : Tool := fun i =>
  match linkOptions.parse false i.arguments with
  | .error fault => .refused i 1 fault
  | .ok p =>
    let isLink := p.has 's'
    let asFile := (p.operands.getLast?).any fun path =>
      p.has 'n' && match i.disk.find i.here path false with
        | .ok (_, .link _) => true
        | _ => false
    let q := match p.operands, p.value? 't' with
      | [target], none => { p with operands := [target, ['.']] }
      | _, _ => if asFile && p.operands.length = 2 then p.adding 'T' [] else p
    withJourney i q fun target path disk =>
      let shown := if isLink then arrow "->" path target else arrow "=>" path target
      let told := whenAsked (p.has 'v') [shown]
      let what := if isLink then "failed to create symbolic link" else "failed to create hard link"
      let place := disk.place i.here path false
      let exists_ := place.toOption.any fun place => (disk.at? place).isSome
      let isSame := match place, disk.find i.here target false with
        | .ok a, .ok (b, _) => a = b
        | _, _ => false
      let entry : Except (List Char) Entry :=
        if isLink then
          if target.isEmpty then .error (what.toList ++ ' ' :: arrow "->" path target ++ ": ".toList
            ++ FileFault.notFound.words.toList)
          else if p.has 'r' then
            let directory := resolvedAnyway i disk (directoryName path)
            .ok (.link (relativePath directory (resolvedAnyway i disk target)))
          else .ok (.link target)
        else match disk.find i.here target (p.has 'L') with
          | .error fault => .error (cannot "failed to access" target fault)
          | .ok (_, .directory _) =>
            .error (target ++ ": hard link not allowed for directory".toList)
          | .ok (_, e) => .ok e
      match entry with
      | .error reason => .error reason
      | .ok entry =>
        if p.has 'f' && exists_ && isSame then .error (sameFile target path)
        else
          let cleared := if p.has 'f' then (disk.remove i.here path).toOption.getD disk else disk
          match cleared.make i.here path entry with
          | .ok disk => .ok (disk, told)
          | .error .alreadyExists => .error (cannot what path .alreadyExists)
          | .error fault =>
            if isLink then .error (cannot what path fault)
            else .error (what.toList ++ ' ' :: arrow "=>" path target ++ ": ".toList
              ++ fault.words.toList)

/-- Makes a file that holds the same as another. -/
def link : Tool := fun i =>
  match (Options.of "" "" []).parse false i.arguments with
  | .error fault => .refused i 1 fault
  | .ok p =>
    match p.operands with
    | [] | [_] => .lacking i 1 "operand" p.operands
    | [source, path] => withEach i 1 [path] fun path disk =>
      let failed (reason : List Char) : List Char :=
        "cannot create link ".toList ++ ticked path ++ " to ".toList ++ ticked source
          ++ ": ".toList ++ reason
      match disk.find i.here source false with
      | .error fault => .error (failed fault.words.toList)
      | .ok (_, .directory _) => .error (failed "Operation not permitted".toList)
      | .ok (_, e) =>
        match disk.make i.here path e with
        | .ok disk => .ok (disk, [])
        | .error fault => .error (failed fault.words.toList)
    | _ :: _ :: extra :: _ => .excessive i 1 extra

-- ================================================================== files

/-- Makes empty files where there is nothing. -/
def touch : Tool := fun i =>
  match (Options.of "acmhf" "drtT" [("no-create", 'c'), ("date", 'd'), ("reference", 'r'),
      ("time", 'T'), ("no-dereference", 'h')]).parse false i.arguments with
  | .error fault => .refused i 1 fault
  | .ok p =>
    let missing := (p.value? 'r').bind fun path =>
      match i.disk.find i.here path true with
      | .ok _ => none
      | .error fault => some (cannot "failed to get attributes of" path fault)
    let badTime := (p.value? 't').filter fun text =>
      let (digits, rest) := text.span Char.isDigit
      let seconds := match rest with
        | ['.', a, b] => a.isDigit && b.isDigit
        | _ => rest.isEmpty
      !([8, 10, 12].contains digits.length && seconds)
    let badDate := (p.value? 'd').filter fun text => (dateSeconds? Zone.universal 0 text).isNone
    match missing, badTime.orElse fun _ => badDate with
    | some reason, _ => .failing i 1 reason
    | _, some text => .failing i 1 ("invalid date format ".toList ++ ticked text)
    | none, none =>
      if p.operands.isEmpty then .lacking i 1 "file operand" []
      else withEach i 1 p.operands fun path disk =>
        match disk.find i.here path true with
        | .ok _ => .ok (disk, [])
        | .error fault =>
          if path = ['-'] || (p.has 'c' && (fault = .notFound || fault = .notADirectory)) then
            .ok (disk, [])
          else if path.getLast? = some '/' && fault = .notFound then
            .error (cannot "setting times of" path fault)
          else changing "cannot touch" path
            ((disk.openAs (i.newMode 0o666) i.here path).map Prod.snd)

/-- The options of `chmod`, with what letters after a dash ask for. -/
def modeOptions : Options :=
  .mk "Rcfv" "F" "rwxXstugoa,+=01234567" [("recursive", 'R'), ("changes", 'c'), ("silent", 'f'),
    ("quiet", 'f'), ("verbose", 'v'), ("reference", 'F')]

/-- What is told of a mode that may have been changed. -/
def modeNotice (path : List Char) (before after : Mode) : List Char :=
  let shown (m : Mode) : List Char := m.octal 4 ++ " (".toList ++ m.letters ++ [')']
  "mode of ".toList ++ ticked path ++
    if before = after then " retained as ".toList ++ shown before
    else " changed from ".toList ++ shown before ++ " to ".toList ++ shown after

/-- Changes what may be done with files. -/
def chmod : Tool := fun i =>
  match modeOptions.parse false i.arguments with
  | .error fault => .refused i 1 fault
  | .ok p =>
    let written := p.given.filter fun g => !"RcfvF".toList.contains g.1
    let (mode, paths) := if written.isEmpty && !p.has 'F' then
        (p.operands.headD [], p.operands.drop 1)
      else ([','].intercalate (written.map fun g => '-' :: g.1 :: g.2), p.operands)
    let likeness := (p.value? 'F').bind fun path =>
      match i.disk.found? i.here path with
      | some (.file _ m) | some (.directory m) => some m
      | _ => none
    let change (isDirectory : Bool) (m : Mode) : Option Mode :=
      likeness <|> Mode.changed? i.mask isDirectory mode m
    let hasMode := !(written.isEmpty && !p.has 'F' && p.operands.isEmpty)
    if !hasMode then .lacking i 1 "operand" []
    else if paths.isEmpty then .lacking i 1 "operand" [mode]
    else if (change false 0).isNone then
      .misusedFor i 1 ("invalid mode: ".toList ++ ticked mode)
    else
      let done := withEach i 1 paths fun path disk =>
        match disk.find i.here path true with
        | .error fault => .error (cannot "cannot access" path fault)
        | .ok (top, _) =>
          let places := if p.has 'R' then placesBelow disk top else [top]
          let places := if places.contains top then places else top :: places
          .ok (places.foldl (fun (disk, text) place =>
            let path := (place.drop top.length).foldl Disk.join path
            match disk.at? place with
            | some (.file _ m) => changed p change disk text place path false m
            | some (.directory m) => changed p change disk text place path true m
            | _ => (disk, text)) (disk, []))
      if p.has 'f' then done.quietly else done
where
  changed (p : Parsed) (change : Bool → Mode → Option Mode) (disk : Disk) (text : List Char)
      (place : Trail) (path : List Char) (isDirectory : Bool) (m : Mode) : Disk × List Char :=
    let after := (change isDirectory m).getD m
    let isTold := p.has 'v' || (p.has 'c' && after ≠ m)
    (disk.setMode place fun _ => after, text ++ whenAsked isTold [modeNotice path m after])

/-- The units of sizes by their letters. -/
def sizeUnits : List (String × Nat) :=
  [("", 1), ("c", 1), ("w", 2), ("b", 512), ("kB", 1000), ("KB", 1000), ("K", 1024),
    ("k", 1024), ("KiB", 1024), ("MB", 1000000), ("M", 1048576), ("MiB", 1048576), ("xM", 1048576),
    ("GB", 1000000000), ("G", 1073741824), ("GiB", 1073741824)]

/-- A size with letters for its unit. -/
def sizeOf? (s : List Char) : Option Nat := do
  let (n, rest) ← readDigits? 10 s
  return n * (← sizeUnits.lookup (String.ofList rest))

/-- The size that a text asks for where a file has a size. -/
def newSize? (before : Nat) (text : List Char) : Option Nat :=
  match text with
  | '+' :: rest => (sizeOf? rest).map (before + ·)
  | '-' :: rest => (sizeOf? rest).map (before - ·)
  | '<' :: rest => (sizeOf? rest).map (min before)
  | '>' :: rest => (sizeOf? rest).map (max before)
  | '/' :: rest => (sizeOf? rest).bind fun n => if n = 0 then none else some (before / n * n)
  | '%' :: rest =>
    (sizeOf? rest).bind fun n => if n = 0 then none else some ((before + n - 1) / n * n)
  | text => sizeOf? text

/-- Cuts files to a size, or fills them with zeros up to it. -/
def truncate : Tool := fun i =>
  match (Options.of "co" "sr" [("size", 's'), ("no-create", 'c'), ("reference", 'r'),
      ("io-blocks", 'o')]).parse false i.arguments with
  | .error fault => .refused i 1 fault
  | .ok p =>
    let likeness := (p.value? 'r').bind fun path => (i.disk.read i.here path).toOption
    let size (before : Nat) : Option Nat := match p.value? 's' with
      | some text => newSize? ((likeness.map List.length).getD before) text
      | none => likeness.map List.length
    if !p.has 's' && !p.has 'r' then
      .misusedFor i 1 "you must specify either \x27--size\x27 or \x27--reference\x27".toList
    else if p.has 's' && (size 0).isNone then
      .failing i 1 ("Invalid number: ".toList ++ ticked ((p.value? 's').getD []))
    else if (size 0).isNone then
      .failing i 1 (cannot "cannot stat" ((p.value? 'r').getD []) .notFound)
    else if p.operands.isEmpty then .lacking i 1 "file operand" []
    else withEach i 1 p.operands fun path disk =>
      if p.has 'c' && (disk.found? i.here path).isNone then .ok (disk, [])
      else match disk.openAs (i.newMode 0o666) i.here path with
        | .ok (place, disk) =>
          .ok (disk.setContent place fun content =>
            let size := (size content.length).getD content.length
            content.take size ++ List.replicate (size - content.length) 0, [])
        | .error fault =>
          .error ("cannot open ".toList ++ ticked path ++ " for writing: ".toList
            ++ fault.words.toList)

/-- Prints its input, and writes it to files. -/
def tee : Tool := fun i =>
  match (Options.of "aip" "" [("append", 'a'), ("ignore-interrupts", 'i')]).parse false
      i.arguments with
  | .error fault => .refused i 1 fault
  | .ok p =>
    let bytes := Octets.toBytes i.input
    let done := withEach i 1 p.operands fun path disk =>
      match disk.openAs (i.newMode 0o666) i.here path with
      | .ok (place, disk) =>
        .ok (disk.setContent place fun old => if p.has 'a' then old ++ bytes else bytes, [])
      | .error fault => .error (path ++ [':', ' '] ++ fault.words.toList)
    { done.followedBy 1 i.input with left := [] }

/-- Writes what is on its way to the disk: there is nothing. -/
def sync : Tool := fun i =>
  match (Options.of "df" "" [("data", 'd'), ("file-system", 'f')]).parse false i.arguments with
  | .error fault => .refused i 1 fault
  | .ok p => withEach i 1 p.operands fun path disk =>
    match disk.find i.here path true with
    | .ok _ => .ok (disk, [])
    | .error fault => .error (cannot "error opening" path fault)

-- ================================================================= blocks

/-- The value that an operand of the form `name=value` gives. -/
def operandValue? (i : Invocation) (name : String) : Option (List Char) :=
  let start := name.toList ++ ['=']
  (i.arguments.filter fun a => start.isPrefixOf a).getLast?.map fun a => a.drop start.length

/-- The names of the operands of `dd`. -/
def blockOperands : List String :=
  ["if", "of", "bs", "ibs", "obs", "cbs", "count", "skip", "seek", "conv", "status", "iflag",
    "oflag", "iseek", "oseek"]

/-- The names of the conversions of `dd`. -/
def blockConversions : List String :=
  ["ascii", "ebcdic", "ibm", "block", "unblock", "lcase", "ucase", "sparse", "swab", "sync",
    "excl", "nocreat", "notrunc", "noerror", "fdatasync", "fsync"]

/-- The names of the flags of `dd`. -/
def blockFlags : List String :=
  ["append", "direct", "directory", "dsync", "sync", "fullblock", "nonblock", "noatime",
    "nocache", "noctty", "nofollow", "count_bytes", "skip_bytes", "seek_bytes"]

/-- A text with its characters swapped two by two. -/
def swapped : List Char → List Char
  | a :: b :: rest => b :: a :: swapped rest
  | rest => rest

/-- A text in blocks, changed as the name of a conversion asks. -/
def convertedBlock (block : Nat) (name : List Char) (text : List Char) : List Char :=
  match String.ofList name with
  | "ucase" => text.map Char.toUpper
  | "lcase" => text.map Char.toLower
  | "swab" => (piecesOf block text.length text).flatMap swapped
  | "sync" => text ++ List.replicate ((block - text.length % block) % block) '\x00'
  | _ => text

/-- What is wrong with the values of the operands of `dd`. -/
def blockFault? (i : Invocation) : Option (List Char) :=
  let bad (names : List String) (isGood : List Char → Bool) : Option (List Char) :=
    (names.filterMap (operandValue? i)).find? fun v => !isGood v
  let hinted (what : String) (value : List Char) : List Char :=
    "invalid ".toList ++ what.toList ++ ": ".toList ++ ticked value ++
      '\n' :: Completion.helpHint i.name
  let listed (name : String) : List (List Char) := (operandValue? i name).elim [] (splitAll ',')
  let conversions := listed "conv"
  let badFlag (name what : String) : Option (List Char) :=
    ((listed name).find? fun f => !blockFlags.contains (String.ofList f)).map (hinted what)
  let isLevel (v : List Char) : Bool := ["none", "noxfer", "progress"].contains (String.ofList v)
  match conversions.find? fun c => !blockConversions.contains (String.ofList c) with
  | some c => some (hinted "conversion" c)
  | none =>
    let badName := (badFlag "iflag" "input flag").orElse fun _ =>
      (badFlag "oflag" "output flag").orElse fun _ =>
        (bad ["status"] isLevel).map (hinted "status level")
    match badName with
    | some reason => some reason
    | none =>
      let number := (bad ["bs", "ibs", "obs", "cbs"] fun v => (sizeOf? v).any (0 < ·)).orElse
        fun _ => bad ["count", "skip", "seek", "iseek", "oseek"] fun v => (sizeOf? v).isSome
      match number with
      | some v => some ("invalid number: ".toList ++ ticked v)
      | none =>
        if ["ucase".toList, "lcase".toList].all conversions.contains then
          some "cannot combine lcase and ucase".toList
        else none

/-- Copies blocks of bytes. -/
def dd : Tool := fun i =>
  match (Options.of "" "" []).parse false i.arguments with
  | .error fault => .refused i 1 fault
  | .ok p =>
    let isKnown (a : List Char) : Bool := match splitOnce ['='] a with
      | some (name, _) => blockOperands.contains (String.ofList name)
      | none => false
    let size (names : List String) (standard : Nat) : Nat :=
      ((names.findSome? (operandValue? i)).bind sizeOf?).getD standard
    match p.operands.find? fun a => !isKnown a with
    | some a => .misusedFor i 1 ("unrecognized operand ".toList ++ ticked a)
    | none =>
      match blockFault? i with
      | some reason => .failing i 1 reason
      | none =>
        let source := (operandValue? i "if").getD ['-']
        let g := gather i [source]
        let inBlock := max 1 (size ["bs", "ibs"] 512)
        let outBlock := max 1 (size ["bs", "obs"] 512)
        let text := g.text.drop (inBlock * size ["skip", "iseek"] 0)
        let text := match (operandValue? i "count").bind sizeOf? with
          | some count => text.take (inBlock * count)
          | none => text
        let conversions := (operandValue? i "conv").elim [] (splitAll ',')
        let result := conversions.foldl (fun text name => convertedBlock inBlock name text) text
        let records (block : Nat) (text : List Char) : List Char :=
          (text.length / block).repr.toList ++ (if text.length % block = 0 then "+0" else "+1").toList
        let status := operandValue? i "status"
        let notice := [records inBlock text ++ " records in".toList,
          records outBlock result ++ " records out".toList] ++
          if status = some "noxfer".toList then []
          else [result.length.repr.toList ++ (if result.length = 1 then " byte" else " bytes").toList
            ++ " copied, 0 s, Infinity B/s".toList]
        let errors := if status = some "none".toList then [] else unlines notice
        let left := if isInput source then
            i.input.drop (inBlock * size ["skip", "iseek"] 0 + text.length)
          else i.input
        if !g.complaints.isEmpty then
          let fault := match i.disk.read i.here source with
            | .error fault => fault
            | .ok _ => .notFound
          .failing i 1 (cannot "failed to open" source fault)
        else match operandValue? i "of" with
          | none => { (Completion.printing i result).followedBy 2 errors with left := left }
          | some path =>
            let bytes := Octets.toBytes result
            let start := outBlock * size ["seek", "oseek"] 0
            match i.disk.openAs (i.newMode 0o666) i.here path with
            | .error fault => .failing i 1 (cannot "failed to open" path fault)
            | .ok (place, disk) =>
              let disk := disk.setContent place fun old =>
                let before := old.take start
                before ++ List.replicate (start - before.length) 0 ++ bytes ++
                  if conversions.contains "notrunc".toList then old.drop (start + bytes.length)
                  else []
              { Completion.complaining i 0 errors with disk := disk, left := left }

end ClrListing.Script
