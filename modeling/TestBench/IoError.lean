/-!
# Failures of the operating system

The causes for which a file operation, the decoding of a file or the start of a child fails, and
the text that reports each.
-/
namespace TestBench

inductive Errno where
  | notPermitted
  | noEntry
  | noProcess
  | interrupted
  | noAddress
  | argumentsTooLong
  | execFormat
  | badDescriptor
  | noChild
  | noMemory
  | denied
  | busy
  | exists
  | notDirectory
  | isDirectory
  | invalid
  | noSpace
  | illegalSeek
  | brokenPipe
  | outOfRange
  | nameTooLong
  | notEmpty
  | tooManyLinks
deriving DecidableEq, Repr

namespace Errno

def number : Errno → Nat
  | .notPermitted => 1
  | .noEntry => 2
  | .noProcess => 3
  | .interrupted => 4
  | .noAddress => 6
  | .argumentsTooLong => 7
  | .execFormat => 8
  | .badDescriptor => 9
  | .noChild => 10
  | .noMemory => 12
  | .denied => 13
  | .busy => 16
  | .exists => 17
  | .notDirectory => 20
  | .isDirectory => 21
  | .invalid => 22
  | .noSpace => 28
  | .illegalSeek => 29
  | .brokenPipe => 32
  | .outOfRange => 34
  | .nameTooLong => 36
  | .notEmpty => 39
  | .tooManyLinks => 40

def describe : Errno → String
  | .notPermitted => "Operation not permitted"
  | .noEntry => "No such file or directory"
  | .noProcess => "No such process"
  | .interrupted => "Interrupted system call"
  | .noAddress => "No such device or address"
  | .argumentsTooLong => "Argument list too long"
  | .execFormat => "Exec format error"
  | .badDescriptor => "Bad file descriptor"
  | .noChild => "No child processes"
  | .noMemory => "Cannot allocate memory"
  | .denied => "Permission denied"
  | .busy => "Device or resource busy"
  | .exists => "File exists"
  | .notDirectory => "Not a directory"
  | .isDirectory => "Is a directory"
  | .invalid => "Invalid argument"
  | .noSpace => "No space left on device"
  | .illegalSeek => "Illegal seek"
  | .brokenPipe => "Broken pipe"
  | .outOfRange => "Numerical result out of range"
  | .nameTooLong => "File name too long"
  | .notEmpty => "Directory not empty"
  | .tooManyLinks => "Too many levels of symbolic links"

end Errno

inductive IoError where
  | system (e : Errno)
  | nulInPath
  | nulInCommand
  | notUtf8
deriving DecidableEq, Repr

namespace IoError

def message : IoError → String
  | .system e => e.describe ++ " (os error " ++ toString e.number ++ ")"
  | .nulInPath => "file name contained an unexpected NUL byte"
  | .nulInCommand => "nul byte found in provided data"
  | .notUtf8 => "stream did not contain valid UTF-8"

end IoError
end TestBench
