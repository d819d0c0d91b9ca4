import CoupTable.Session

/-!
# The command line

`coup-tty [--config FILE] [--record FILE] [--replay FILE] NAME NAME [NAME ...]` plays a game at a
terminal, one line per press of a button.
-/

namespace CoupTable

/-- What the command line asks for. -/
structure Options where
  /-- The players' names. -/
  names : List String := []
  /-- The file with the settings. -/
  config : Option String := none
  /-- The file that the session is recorded to. -/
  record : Option String := none
  /-- The file with the transcript that the session begins with. -/
  replay : Option String := none
deriving DecidableEq, Repr

namespace Options

/-- How the program is called. -/
def usage : String :=
  "usage: coup-tty [--config FILE] [--record FILE] [--replay FILE] NAME NAME [NAME ...]"

/-- Whether an argument is read as a flag. -/
def isFlag (arg : String) : Bool := arg.startsWith "-" && arg != "-"

/-- The options with the file behind a flag. A flag may be given once. -/
def withFile? (o : Options) (flag file : String) : Option Options :=
  match flag with
  | "--config" => if o.config.isNone then some { o with config := some file } else none
  | "--record" => if o.record.isNone then some { o with record := some file } else none
  | "--replay" => if o.replay.isNone then some { o with replay := some file } else none
  | _ => none

/-- The flag and the file of an argument that joins them by an equals sign. -/
def joined? (arg : String) : Option (String × String) :=
  let cs := arg.toList
  match cs.dropWhile (· != '=') with
  | _ :: file => some (String.ofList (cs.takeWhile (· != '=')), String.ofList file)
  | [] => none

/-- Reads the arguments. A file stands behind its flag, as an argument of its own or after an equals
sign, and everything behind `--` is a name. -/
def addArgs? (o : Options) : List String → Option Options
  | [] => some o
  | "--" :: names => some { o with names := o.names ++ names }
  | arg :: args =>
    if isFlag arg then
      match joined? arg, args with
      | some (flag, file), args => (o.withFile? flag file).bind fun o => addArgs? o args
      | none, file :: args =>
        if isFlag file then none else (o.withFile? arg file).bind fun o => addArgs? o args
      | none, [] => none
    else addArgs? { o with names := o.names ++ [arg] } args

/-- The options that the arguments stand for, if they name as many players as a table can seat. -/
def ofArgs? (args : List String) : Option Options :=
  (addArgs? {} args).filter fun o =>
    minPlayers ≤ o.names.length && o.names.length ≤ maxPlayers

end Options

/-- Reads a file that may be named. -/
def readFile (name : Option String) : IO Session.File := do
  match name with
  | none => return .unnamed
  | some name =>
    try
      let bytes ← IO.FS.readBinFile name
      return .holding bytes.data.toList
    catch _ =>
      return .missing

/-- Reads lines from standard input until the session ends, and prints as it goes. -/
partial def interact (s : Session) : IO (Except Refusal Session) := do
  if s.ended then return .ok s
  let line ← try some <$> (← IO.getStdin).getLine catch _ => pure none
  match line with
  | none => return .error .unreadable
  | some "" => return .ok s
  | some line =>
    match s.enter (.ofString line) with
    | .error cause => return .error (.fault cause)
    | .ok (out, s) =>
      IO.print out
      interact s

/-- Prints why a session failed, and gives the exit code. -/
def fail (reason : Refusal) : IO UInt32 := do
  match reason with
  | .fault cause =>
    IO.eprintln cause.message
    return 101
  | _ =>
    IO.eprintln s!"Error: {reason.summary}"
    return 1

/-- A generator that starts from bytes which the system draws. -/
def drawGenerator : IO Pcg := do
  let words ← (List.range 8).mapM fun _ => do
    let bytes ← IO.getRandomBytes 4
    return BitVec.ofNat 32 (bytes.data.foldl (fun word byte => word * 256 + byte.toNat) 0)
  return .ofWords words

/-- Plays a session. -/
def play (o : Options) : IO UInt32 := do
  let settings := Session.readSettings (← readFile o.config)
  let transcript := Session.readTranscript (← readFile o.replay)
  match Session.prepare o.names settings transcript (← drawGenerator) with
  | .error reason => fail reason
  | .ok (out, s) =>
    IO.print out
    match ← interact s with
    | .error reason => fail reason
    | .ok s =>
      if let some name := o.record then
        IO.FS.writeBinFile name ⟨(Transcript.write s.recorded.reverse).toArray⟩
      return 0

end CoupTable

/-- Plays a game at the terminal. -/
def main (args : List String) : IO UInt32 := do
  match CoupTable.Options.ofArgs? args with
  | some o => CoupTable.play o
  | none =>
    IO.eprintln CoupTable.Options.usage
    return 2
