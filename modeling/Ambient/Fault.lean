import Ambient.Class

/-!
# Faults

What can go wrong, by cause, and the wording of each cause.  A `Fault` is about one descriptor and
carries the place of the property it belongs to; a `Failure` is any way a whole run can end without
an answer.
-/

namespace Ambient

structure Location where
  /-- The qualified name of the class that declares the property. -/
  owner : String
  property : String
  file : Option String
  line : Option Nat
  deriving DecidableEq, Repr, Inhabited

namespace Location

/-- The place in words.  A line is given only together with its file. -/
def describe (location : Location) : String :=
  "for property `" ++ location.property ++ "` in " ++ location.owner ++
    match location.file, location.line with
    | some file, some line => " (" ++ file ++ ":" ++ toString line ++ ")"
    | some file, none => " (" ++ file ++ ")"
    | none, _ => ""

end Location

inductive Reason
  /-- A keyword that TypeScript cannot express. -/
  | unsupportedKeyword
  /-- An array form without a meaning. -/
  | unsupportedArray
  | oneArgumentExpected
  | twoArgumentsExpected
  | unsupportedArrayKey
  /-- The pseudo-type `parent` in a class that has none. -/
  | noParent
  deriving DecidableEq, Repr, Inhabited

namespace Reason

def describe : Reason → String
  | unsupportedKeyword => "unsupported scalar type"
  | unsupportedArray => "unsupported array type"
  | oneArgumentExpected => "expected exactly one type argument"
  | twoArgumentsExpected => "expected exactly two type arguments"
  | unsupportedArrayKey => "unsupported array key type"
  | noParent => "class has no parent to resolve"

end Reason

structure Fault where
  reason : Reason
  /-- The offending text. -/
  text : String
  location : Option Location := none
  deriving DecidableEq, Repr, Inhabited

namespace Fault

/-- A reason with the text it is about and, where known, the place. -/
def wording (reason text : String) (location : Option Location) : String :=
  reason ++ " `" ++ text ++ "`" ++
    match location with
    | some location => " " ++ location.describe
    | none => ""

def describe (fault : Fault) : String :=
  wording fault.reason.describe fault.text fault.location

end Fault

/-- How a run can fail. -/
inductive Failure
  /-- A class was asked for that nobody described. -/
  | unknownClass (name : String)
  /-- No class was asked for, and none was discovered. -/
  | nothingToGenerate
  /-- A descriptor has no type. -/
  | unresolved (fault : Fault)
  /-- A discovery directory does not exist. -/
  | missingDirectory (path : String)
  /-- A discovery directory exists, but is a file. -/
  | notDirectory (path : String)
  /-- A source file could not be read. -/
  | unreadable (path : String)
  /-- The output could not be written; a stream has no path. -/
  | unwritable (path : Option String)
  /-- Inline expansion never ends, because classes are found under names that are not their own. -/
  | endless
  deriving DecidableEq, Repr, Inhabited

namespace Failure

def configurationWording (problem : String) : String :=
  "configuration error: " ++ problem

def directoryWording (path : String) : String :=
  "auto discover directory not found: " ++ path

def readWording (path : String) : String :=
  "failed to read " ++ path

def writeWording (path : Option String) : String :=
  "failed to write generated types" ++
    match path with
    | some path => " to " ++ path
    | none => ""

def describe : Failure → String
  | unknownClass name => configurationWording ("unknown class `" ++ name ++ "`")
  | nothingToGenerate => configurationWording "no classes to generate"
  | unresolved fault => fault.describe
  | missingDirectory path => directoryWording path
  | notDirectory path => directoryWording path
  | unreadable path => readWording path
  | unwritable path => writeWording path
  | endless => "inline expansion does not end"

end Failure

end Ambient
