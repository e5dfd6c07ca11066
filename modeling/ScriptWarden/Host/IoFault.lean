/-!
# Faults of the host

What the host answers when it cannot do what it was asked to.
-/

namespace ScriptWarden

/-- Why the host could not do something. -/
inductive IoFault where
  | notFound
  | permissionDenied
  | alreadyExists
  | notADirectory
  | isADirectory
  | directoryNotEmpty
  | nameTooLong
  | tooManyLinks
  | invalidInput
  | notExecutable
  | nulInPath
  | noSuchProcess
  /-- What was read is no UTF-8 text. -/
  | notText
  | other (message : String)
deriving DecidableEq, Repr, Inhabited

/-- The wording of a fault, with the host's number for it. -/
def IoFault.message : IoFault → String
  | .notFound => "No such file or directory (os error 2)"
  | .noSuchProcess => "No such process (os error 3)"
  | .notExecutable => "Exec format error (os error 8)"
  | .permissionDenied => "Permission denied (os error 13)"
  | .alreadyExists => "File exists (os error 17)"
  | .notADirectory => "Not a directory (os error 20)"
  | .isADirectory => "Is a directory (os error 21)"
  | .invalidInput => "Invalid argument (os error 22)"
  | .nameTooLong => "File name too long (os error 36)"
  | .directoryNotEmpty => "Directory not empty (os error 39)"
  | .tooManyLinks => "Too many levels of symbolic links (os error 40)"
  | .nulInPath => "file name contained an unexpected NUL byte"
  | .notText => "stream did not contain valid UTF-8"
  | .other message => message

end ScriptWarden
