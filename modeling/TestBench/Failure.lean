import TestBench.Expand
import TestBench.IoError
import TestBench.Path
/-!
# Failures of a run

What can end a run, or the reading of its settings, and the chain of texts that reports it: what was
attempted first, the cause last.
-/
namespace TestBench

inductive Failure where
  | configUnreadable (p : Path) (e : IoError)
  | configInvalid (p : Path)
  | logBaseUndefined (setting name : String)
  | programUndefined (setting name : String)
  | planUnopened (p : Path) (e : IoError)
  | planUnreadable (p : Path) (e : IoError)
  | logDirKept (p : Path) (e : IoError)
  | logDirUnmade (p : Path) (e : IoError)
  | resultsUnmade (p : Path) (e : IoError)
  | headerUnwritten (p : Path) (e : IoError)
  | resultsUnopened (p : Path) (e : IoError)
  | rowUnwritten (p : Path) (e : IoError)
  | logUnwritten (p : Path) (e : IoError)
  | reported (text : String)
deriving DecidableEq, Repr

namespace Failure

def chain : Failure → List String
  | .configUnreadable p e => ["Failed to read config file: " ++ p.display, e.message]
  | .configInvalid p => ["Failed to parse config file: " ++ p.display]
  | .logBaseUndefined s n => ["Failed to expand log base path: " ++ s, Expand.lookupFailure n]
  | .programUndefined s n => ["Failed to expand runner program: " ++ s, Expand.lookupFailure n]
  | .planUnopened p e => ["Failed to open test plan: " ++ p.display, e.message]
  | .planUnreadable p e => ["Failed to read test plan: " ++ p.display, e.message]
  | .logDirKept p e => ["Failed to clean up old log directory: " ++ p.display, e.message]
  | .logDirUnmade p e => ["Failed to create log directory: " ++ p.display, e.message]
  | .resultsUnmade p e => ["Failed to create results file: " ++ p.display, e.message]
  | .headerUnwritten p e => ["Failed to write results header: " ++ p.display, e.message]
  | .resultsUnopened p e => ["Failed to open results file: " ++ p.display, e.message]
  | .rowUnwritten p e => ["Failed to append to results file: " ++ p.display, e.message]
  | .logUnwritten p e => ["Failed to write runner log: " ++ p.display, e.message]
  | .reported text => [text]

def message (f : Failure) : String := String.intercalate ": " f.chain

end Failure
end TestBench
