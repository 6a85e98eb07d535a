/-
Reading text files.

A load reads the files a script names. What reading a path gives is a plain
function, so a load is a function of its inputs.
-/
namespace MaterialScript

/-- Why the system refuses an operation on a path. -/
inductive FileFault where
  | notFound
  | notDirectory
  | isDirectory
  | alreadyExists
  | notText
  | nameTooLong
  | nulInPath
  | other (reason : String)
deriving DecidableEq

/-- The system's message. -/
def FileFault.message : FileFault → String
  | notFound => "No such file or directory (os error 2)"
  | notDirectory => "Not a directory (os error 20)"
  | isDirectory => "Is a directory (os error 21)"
  | alreadyExists => "File exists (os error 17)"
  | notText => "stream did not contain valid UTF-8"
  | nameTooLong => "File name too long (os error 36)"
  | nulInPath => "file name contained an unexpected NUL byte"
  | other reason => reason

/-- The text of the file at each path, or why there is none. -/
abbrev Files := String → Except FileFault String

end MaterialScript
