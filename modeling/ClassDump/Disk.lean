import ClassDump.CommandLine.Run

/-! The disk behind a run from the command line. What a run may ask about is read into a world first, the run works on
that world, and the changes that it reports are then made on the disk. A change that the disk refuses becomes a fault
of the world, with which the run is worked out again; what was done before it stays as it was. -/

namespace ClassDump.Disk

/-- How much of what a path names is read: the thing itself, all names below it, or the contents of files too. -/
inductive Depth where
  | surface
  | names
  | contents
deriving DecidableEq

def errnoOf : IO.Error → Errno
  | .alreadyExists _ code _ | .otherError code _ | .resourceBusy code _ | .resourceVanished code _
  | .unsupportedOperation code _ | .hardwareFault code _ | .unsatisfiedConstraints code _ | .illegalOperation code _
  | .protocolError code _ | .timeExpired code _ | .interrupted _ code _ | .noFileOrDirectory _ code _
  | .invalidArgument _ code _ | .permissionDenied _ code _ | .resourceExhausted _ code _
  | .inappropriateType _ code _ | .noSuchThing _ code _ => ⟨code.toNat⟩
  | .unexpectedEof | .userError _ => ⟨5⟩

/-- A world that is being read, with the directories that were read in depth, by their real paths. -/
structure Reading where
  world : World
  done : List (String × Depth) := []

/-- What kind of thing stands at a path, links not followed. -/
def kindAt (path : String) : IO (Option IO.FS.FileType) := do
  try
    return some (← (System.mkFilePath [path]).symlinkMetadata).type
  catch _ => return none

def realPath? (path : String) : IO (Option String) := do
  try
    return some (← IO.FS.realPath path).toString
  catch _ => return none

/-- Where a link leads that leads nowhere. -/
def nowhere : String := "/\x00"

/-- The names of a directory; a directory that cannot be listed becomes a fault. -/
def namesIn (path : String) (reading : Reading) : IO (List String × Reading) := do
  try
    let entries ← (System.mkFilePath [path]).readDir
    return ((entries.map (·.fileName)).toList, reading)
  catch error =>
    let faults := reading.world.faults
    let faults := { faults with list := (path, errnoOf error) :: faults.list }
    return ([], { reading with world := { reading.world with faults := faults } })

def readData (path : String) (reading : Reading) : IO (Bytes × Reading) := do
  try
    return ((← IO.FS.readBinFile path).toList, reading)
  catch error =>
    let faults := reading.world.faults
    let faults := { faults with read := (path, errnoOf error) :: faults.read }
    return ([], { reading with world := { reading.world with faults := faults } })

def put (path : String) (node : Node) (reading : Reading) : Reading :=
  { reading with world := reading.world.place (Path.ofText path) node }

/-- Reads what stands at a path that has no links in it. Links below it are followed, so that questions about what they
lead to have their answers. -/
partial def readTree (depth : Depth) (path : String) (reading : Reading) : IO Reading := do
  match ← kindAt path with
  | none => return reading
  | some .file =>
    if depth = .contents then
      let (data, reading) ← readData path reading
      return put path (.file data) reading
    else return put path (.file []) reading
  | some .other => return put path .special reading
  | some .symlink =>
    match ← realPath? path with
    | none => return put path (.link nowhere) reading
    | some target => readTree depth target (put path (.link target) reading)
  | some .dir =>
    let known :=
      match reading.world.isDir (Path.ofText path) with
      | .ok known => known
      | .error _ => false
    let reading := if known then reading else put path (.dir []) reading
    if depth = .surface || reading.done.contains (path, depth) then return reading
    let mut (names, reading) ← namesIn path { reading with done := (path, depth) :: reading.done }
    for name in names do
      let child := if Text.endsWith path "/" then path ++ name else path ++ "/" ++ name
      reading ← readTree depth child reading
    return reading

/-- Reads what a path names, with all that its names lead through. -/
def readAlong (depth : Depth) : List String → String → Reading → IO Reading
  | [], here, reading => readTree depth here reading
  | name :: rest, here, reading => do
    let reading ← readTree .surface here reading
    if name = ".." then
      let above := (← realPath? (here ++ "/..")).getD "/"
      readAlong depth rest above reading
    else
      let next := if Text.endsWith here "/" then here ++ name else here ++ "/" ++ name
      match ← kindAt next with
      | none => return reading
      | some .symlink =>
        match ← realPath? next with
        | none => readTree .surface next reading
        | some target => readAlong depth rest target (put next (.link target) reading)
      | some _ => readAlong depth rest next reading

/-- Reads what a path names that may be relative to a directory. -/
def readPath (depth : Depth) (workingDir : String) (text : String) (reading : Reading) : IO Reading :=
  let path := Path.ofText text
  if path.hasNul then return reading
  else if path.isAbsolute then readAlong depth path.parts "/" reading
  else readAlong depth path.parts workingDir reading

/-- Reads the world that a run with arguments may ask about. -/
def readWorld (arguments : CommandLine.Arguments) : IO World := do
  let workingDir := (← IO.FS.realPath (← IO.currentDir)).toString
  let home := (← IO.getEnv "HOME").getD "/"
  let accounts ←
    try
      pure (Path.homesOf (← IO.FS.readFile "/etc/passwd"))
    catch _ => pure []
  let start : World :=
    { root := .dir [], workingDir := ⟨(Path.ofText workingDir).parts, []⟩, home := home, accounts := accounts }
  let mut reading : Reading := ⟨start, []⟩
  reading ← readPath .surface workingDir workingDir reading
  let classdump := arguments.classdump.text?.getD "."
  reading ← readPath .names workingDir classdump reading
  let aside := (← realPath? classdump).getD workingDir
  reading ← readPath .surface workingDir (aside ++ "/../" ++ Settings.defaultExclusionName) reading
  reading ← readPath .surface workingDir (arguments.exclusion?.getD "") reading
  for entry in arguments.entries do
    reading ← readPath .surface workingDir entry reading
    let expanded := Path.ofText (Path.expandHome home accounts entry)
    match reading.world.absolute expanded with
    | .ok path => reading ← readPath .contents workingDir path.text reading
    | .error _ => pure ()
  return reading.world

def copyAcross (source target : String) : IO Unit := do
  IO.FS.writeBinFile target (← IO.FS.readBinFile source)
  IO.FS.removeFile source

/-- Makes a change on the disk. -/
def perform : Change → IO Unit
  | .made path => IO.FS.createDir path.text
  | .moved source target => do
    IO.FS.createDirAll target.parent.text
    try
      IO.FS.rename source.text target.text
    catch error =>
      if errnoOf error = .crossDevice then copyAcross source.text target.text else throw error

/-- The changes that a run reports. -/
def changesOf (world : World) : List Change :=
  world.events.toList.filterMap fun event =>
    match event with
    | .changed change => some change
    | _ => none

def performAll : List Change → Nat → IO (Option (Change × Errno × Nat))
  | [], _ => return none
  | change :: rest, count => do
    try
      perform change
    catch error => return some (change, errnoOf error, count)
    performAll rest (count + 1)

/-- Runs with arguments on a world and makes the changes on the disk, of which some were made already. -/
partial def carryOut (arguments : CommandLine.Arguments) (debug : Bool) (world : World) (made : Nat) :
    IO (CommandLine.Ending × World) := do
  let (ending, after) := CommandLine.conclude debug (CommandLine.run arguments world)
  match ← performAll ((changesOf after).drop made) made with
  | none => return (ending, after)
  | some (.made path, errno, _) =>
    let failure := ConfigurationError.exclusionNotMade path (.refused errno (some path.text) none)
    return CommandLine.conclude debug (CommandLine.refuse failure.message world)
  | some (.moved source _, errno, count) =>
    let faults := { world.faults with move := (source.text, errno) :: world.faults.move }
    carryOut arguments debug { world with faults := faults } count

end ClassDump.Disk
