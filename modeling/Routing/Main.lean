import Routing.CommandLine

/-!
# The program

Reads its arguments, carries out the command and writes the outcome. Arguments are options, in any
place before `--`, and two others: the method and the URL of the request.
-/

namespace Routing.Arguments

/-- How the arguments are written. -/
def usage : String :=
  "usage: [--route DEFINITION]... [--compiled] [--dump-tree] [--verbose] [--] METHOD URL"

/-- What is asked for before any argument is read. -/
def start : Command where
  definitions := []
  method := ""
  url := ""
  compiled := false
  listTrees := false
  verbose := false

/-- One more definition of a route. -/
def addDefinition (command : Command) (definition : String) : Command :=
  { command with definitions := command.definitions ++ [definition] }

/-- The arguments that are no options have to be the method and the URL. -/
def finish (command : Command) : List String → Option Command
  | [method, url] => some { command with method, url }
  | _ => none

/-- The text behind `--route=`. -/
def attachedDefinition? (argument : String) : Option String :=
  if argument.startsWith "--route=" then
    some (String.ofList (argument.toList.drop "--route=".length))
  else
    none

/-- Read arguments from left to right; `others` are those met so far that are no options. -/
def read (command : Command) (others : List String) : List String → Option Command
  | [] => finish command others
  | "--" :: rest => finish command (others ++ rest)
  | "--compiled" :: rest => read { command with compiled := true } others rest
  | "--dump-tree" :: rest => read { command with listTrees := true } others rest
  | "--verbose" :: rest | "-v" :: rest => read { command with verbose := true } others rest
  | "--route" :: definition :: rest | "-r" :: definition :: rest =>
    read (addDefinition command definition) others rest
  | argument :: rest =>
    match attachedDefinition? argument with
    | some definition => read (addDefinition command definition) others rest
    | none =>
      if argument.startsWith "-" then none
      else read command (others ++ [argument]) rest

/-- Read the arguments of a run. -/
def parse (arguments : List String) : Option Command :=
  read start [] arguments

end Routing.Arguments

open Routing in
/-- Run the command line. -/
def main (args : List String) : IO UInt32 := do
  match Arguments.parse args with
  | none =>
    IO.eprintln Arguments.usage
    return 2
  | some command =>
    let outcome := command.outcome.value
    IO.print outcome.stdout
    IO.eprint outcome.stderr
    return outcome.exitCode.toUInt32
