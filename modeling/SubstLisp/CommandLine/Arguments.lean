/-!
# Command line arguments

The arguments name source files to run; without any, a dialogue starts.  The options concern line
editing and logging, which leave no trace in the results, apart from the one that asks for the
version.
-/

namespace SubstLisp

/-- What the command line asks for. -/
inductive Request where
  | version
  | runFiles (paths : List String)
  | dialogue
  /-- The argument is no known option. -/
  | unknownOption (argument : String)
deriving DecidableEq

/-- The options that take no value and change no result. -/
def silentOptions : List String :=
  ["--no-history", "--vi", "--verbose"]

def requestForFiles (paths : List String) : Request :=
  if paths.isEmpty then .dialogue else .runFiles paths

/-- What some arguments ask for, after arguments that name the files `paths`.  Behind two dashes,
all arguments name files. -/
def requestAfter (paths : List String) : List String → Request
  | [] => requestForFiles paths
  | "--" :: rest => requestForFiles (paths ++ rest)
  | "--history" :: _ :: rest => requestAfter paths rest
  | argument :: rest =>
      if argument = "--version" then .version
      else if silentOptions.contains argument then requestAfter paths rest
      else match argument.toList with
        | '-' :: '-' :: option =>
            if "history=".toList.isPrefixOf option then requestAfter paths rest
            else .unknownOption argument
        | '-' :: first :: letters =>
            if (first :: letters).all (· = 'v') then requestAfter paths rest
            else if (first :: letters).all fun c => c = 'v' || c = 'V' then .version
            else .unknownOption argument
        | _ => requestAfter (paths ++ [argument]) rest

def requestOf (arguments : List String) : Request :=
  requestAfter [] arguments

def versionLine : String :=
  "subscheme 0.1.0\n"

end SubstLisp
