import GlancesRs.Linux.Interfaces

namespace GlancesRs

open Data

/-! `/etc/os-release`: the name and version of the distribution, of which the
last line with each counts. -/

/-- `trim_matches('"')`: all of the quotes around the text. -/
def trimQuotes (text : List Char) : List Char :=
  ((text.dropWhile (· = '"')).reverse.dropWhile (· = '"')).reverse

def stripPrefix (start text : List Char) : Option (List Char) :=
  if start.isPrefixOf text then some (text.drop start.length) else none

/-- Name and version so far. -/
def osReleaseLine (release : List Char × List Char) (line : List Char) : List Char × List Char :=
  match stripPrefix "NAME=".toList line with
  | some v => (trimQuotes (trimmed v), release.2)
  | none =>
      match stripPrefix "VERSION_ID=".toList line with
      | some v => (release.1, trimQuotes (trimmed v))
      | none => release

def parseOsRelease (content : List Char) : String :=
  let (name, version) := (lines content).foldl osReleaseLine ([], [])
  trim (.ofList (name ++ ' ' :: version))

example : parseOsRelease "NAME=\"Ubuntu\"\nID=ubuntu\nVERSION_ID=\"24.04\"\n".toList =
    "Ubuntu 24.04" := by decide +kernel

end GlancesRs
