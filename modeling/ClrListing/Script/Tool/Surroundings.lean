/-
Tools that tell where they are run: by whom, on which machine, in which
directory, and with which environment.
-/
import ClrListing.Script.Tool.Basic

namespace ClrListing.Script

-- ================================================================= plain

/-- A tool that does nothing but end with a status. -/
def fixedStatus (status : Nat) : Tool := fun i => .ofStatus i status

/-- A tool that takes no arguments and always prints the same. -/
def fixedText (text : String) : Tool := fun i =>
  match (Options.of "" "" []).parse false i.arguments with
  | .error fault => .refused i 1 fault
  | .ok p =>
    match p.operands with
    | [] => .printing i text.toList
    | extra :: _ => .excessive i 1 extra

/-- Prints the directory that it is run in. -/
def printHere : Tool := fun i =>
  match (Options.of "LP" "" [("logical", 'L'), ("physical", 'P')]).parse false i.arguments with
  | .error fault => .refused i 1 fault
  | .ok p =>
    (Completion.printing i (Disk.pathOf i.here ++ ['\n'])).precededBy 2
      (if p.operands.isEmpty then [] else i.name ++ ": ignoring non-option arguments\n".toList)

/-- Prints the environment, or the values of some names in it. -/
def printenv : Tool := fun i =>
  match (Options.of "0" "" [("null", '0')]).parse true i.arguments with
  | .error fault => .refused i 2 fault
  | .ok p =>
    let ended (texts : List (List Char)) : List Char :=
      texts.flatMap fun s => s ++ [if p.has '0' then '\x00' else '\n']
    if p.operands.isEmpty then
      .printing i (ended (i.environment.map fun v => v.1 ++ '=' :: v.2))
    else
      let values := p.operands.filterMap fun name => i.environment.lookup name
      { Completion.printing i (ended values) with
        status := if values.length = p.operands.length then 0 else 1 }

/-- Tells whether the input is a terminal, which it never is. -/
def tty : Tool := fun i =>
  match (Options.of "s" "" [("silent", 's'), ("quiet", 's')]).parse false i.arguments with
  | .error fault => .refused i 2 fault
  | .ok p =>
    match p.operands with
    | [] => { Completion.printing i (if p.has 's' then [] else "not a tty\n".toList) with
        status := 1 }
    | extra :: _ => .excessive i 2 extra

-- =============================================================== machine

/-- What is told of the machine, by the letters that ask for it, in the order
in which it is told. -/
def machineFacts : List (Char × String) :=
  [('s', "Linux"), ('n', "localhost"), ('r', "6.1.0"), ('v', "#1 SMP"), ('m', "x86_64"),
    ('p', "x86_64"), ('i', "x86_64"), ('o', "GNU/Linux")]

/-- Prints what the machine is. -/
def uname : Tool := fun i =>
  match (Options.of "asnrvmpio" "" [("all", 'a'), ("kernel-name", 's'), ("nodename", 'n'),
      ("kernel-release", 'r'), ("kernel-version", 'v'), ("machine", 'm'), ("processor", 'p'),
      ("hardware-platform", 'i'), ("operating-system", 'o')]).parse false i.arguments with
  | .error fault => .refused i 1 fault
  | .ok p =>
    match p.operands with
    | [] =>
      let asked (letter : Char) : Bool :=
        p.has 'a' || p.has letter || (p.given.isEmpty && letter = 's')
      let facts := (machineFacts.filter fun f => asked f.1).map fun f => f.2.toList
      .printing i (unlines [spaced facts])
    | extra :: _ => .excessive i 1 extra

-- ================================================================== users

/-- The complaint that there is no user of a name. -/
def noSuchUser (name : List Char) : List Char := ticked name ++ ": no such user".toList

/-- Whether a text names the only user. -/
def isUser (name : List Char) : Bool := name = "root".toList || name = ['0']

/-- Prints who runs it. -/
def identity : Tool := fun i =>
  match (Options.of "ugGnrazZ" "" [("user", 'u'), ("group", 'g'), ("groups", 'G'), ("name", 'n'),
      ("real", 'r'), ("zero", 'z'), ("context", 'Z')]).parse false i.arguments with
  | .error fault => .refused i 1 fault
  | .ok p =>
    let choices := "ugG".toList.filter p.has
    let text := if choices.isEmpty then "uid=0(root) gid=0(root) groups=0(root)"
      else if p.has 'n' then "root" else "0"
    let line := text.toList ++ [if p.has 'z' then '\x00' else '\n']
    if choices.length > 1 then .failing i 1 "cannot print \x22only\x22 of more than one choice".toList
    else if choices.isEmpty && (p.has 'n' || p.has 'r') then
      .failing i 1 "cannot print only names or real IDs in default format".toList
    else if choices.isEmpty && p.has 'z' then
      .failing i 1 "option --zero not permitted in default format".toList
    else
      let unknown := p.operands.filter fun name => !isUser name
      let known := if p.operands.isEmpty then 1 else p.operands.length - unknown.length
      ((Completion.printing i (List.replicate known line).flatten).precededBy 2
        (unlines (unknown.map fun name => i.name ++ [':', ' '] ++ noSuchUser name))).withStatus
        (if unknown.isEmpty then 0 else 1)

/-- Prints the groups of users. -/
def groups : Tool := fun i =>
  match (Options.of "" "" []).parse false i.arguments with
  | .error fault => .refused i 1 fault
  | .ok p =>
    if p.operands.isEmpty then .printing i "root\n".toList
    else
      let (known, unknown) := p.operands.partition isUser
      ((Completion.printing i (unlines (known.map fun name => name ++ " : root".toList))).precededBy
        2 (unlines (unknown.map fun name => i.name ++ [':', ' '] ++ noSuchUser name))).withStatus
        (if unknown.isEmpty then 0 else 1)

/-- Tells that nobody has logged in. -/
def logname : Tool := fun i =>
  match (Options.of "" "" []).parse false i.arguments with
  | .error fault => .refused i 1 fault
  | .ok p =>
    match p.operands with
    | [] => .failing i 1 "no login name".toList
    | extra :: _ => .excessive i 1 extra

/-- Gives files to users or groups, of which there is one. -/
def giveTo (kind : String) (separator : Char) : Tool := fun i =>
  match (Options.of "Rcfvh" "r" [("recursive", 'R'), ("silent", 'f'), ("quiet", 'f'),
      ("no-dereference", 'h'), ("reference", 'r')]).parse false i.arguments with
  | .error fault => .refused i 1 fault
  | .ok p =>
    match p.operands with
    | [] => .lacking i 1 "operand" []
    | owner :: paths =>
      let names := (Text.splitAll separator owner).filter fun name => !name.isEmpty
      match names.find? fun name => !isUser name with
      | some _ => .failing i 1 (("invalid " ++ kind ++ ": ").toList ++ ticked owner)
      | none =>
        if paths.isEmpty then .lacking i 1 "operand" [owner]
        else
          let complaints := paths.filterMap fun path => match i.disk.find i.here path true with
            | .ok _ => none
            | .error fault =>
              some (i.name ++ ": cannot access ".toList ++ ticked path ++ [':', ' ']
                ++ fault.words.toList)
          .complaining i (if complaints.isEmpty then 0 else 1)
            (if p.has 'f' then [] else unlines complaints)

end ClrListing.Script
