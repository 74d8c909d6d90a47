import MarketFeed.Bytes

/-!
Files by path. Every file and directory is known by its steps from the root; a relative path starts
in the working directory, and a step up from the root stays there. Links and permissions are left
out.
-/
namespace MarketFeed

inductive FileFault where
  | missing
  | directory
  | notDirectory
  | nameTooLong
  | nulInName
  | notText
  | other (text : String)
  deriving DecidableEq, Repr

def FileFault.message : FileFault → String
  | .missing => "No such file or directory (os error 2)"
  | .directory => "Is a directory (os error 21)"
  | .notDirectory => "Not a directory (os error 20)"
  | .nameTooLong => "File name too long (os error 36)"
  | .nulInName => "file name contained an unexpected NUL byte"
  | .notText => "stream did not contain valid UTF-8"
  | .other text => text

structure File where
  path : List String
  content : Bytes
  deriving DecidableEq, Repr

/- The files of a machine, the directories that need not hold one, and the working directory. -/
structure Files where
  stored : List File
  folders : List (List String)
  home : List String
  deriving DecidableEq, Repr

namespace Files

def content? (files : Files) (path : List String) : Option Bytes :=
  (files.stored.find? fun f => f.path == path).map File.content

def isDirectory (files : Files) (path : List String) : Bool :=
  path.isPrefixOf files.home || files.folders.any path.isPrefixOf ||
    files.stored.any fun f => path.isPrefixOf f.path && path != f.path

def maxStep : Nat := 255

def maxPath : Nat := 4096

def walk (files : Files) (here : List String) : List String → Except FileFault Bytes
  | [] =>
    match files.content? here with
    | some content => .ok content
    | none => if files.isDirectory here then .error .directory else .error .missing
  | step :: rest =>
    if !files.isDirectory here then
      .error (if (files.content? here).isSome then .notDirectory else .missing)
    else if step == "" || step == "." then files.walk here rest
    else if step == ".." then files.walk here.dropLast rest
    else if maxStep < (utf8 step).length then .error .nameTooLong
    else files.walk (here ++ [step]) rest

/- The content of a file. The path is checked as a whole before it is followed, from the root if it
starts with a slash. -/
def read (files : Files) (path : String) : Except FileFault Bytes :=
  if path.toList.contains '\x00' then .error .nulInName
  else if maxPath ≤ (utf8 path).length then .error .nameTooLong
  else if path.isEmpty then .error .missing
  else files.walk (if path.startsWith "/" then [] else files.home) (path.splitOn "/")

end Files

def asText (content : Except FileFault Bytes) : Except FileFault String :=
  match content with
  | .error fault => .error fault
  | .ok raw => match readUtf8 raw with
    | some text => .ok text
    | none => .error .notText

end MarketFeed
