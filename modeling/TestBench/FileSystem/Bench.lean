import TestBench.FileSystem.Directory
import TestBench.User
/-!
# The files of the bench

The file system that every session starts from, files put into it beforehand, and the listing of
what lies below a directory.
-/
namespace TestBench.FileSystem

def tools : List String :=
  ["cat", "echo", "env", "false", "head", "printf", "rm", "seq", "sh", "sleep", "touch", "tr", "true"]

def location (names : List String) : Location := names.map Utf8.ofText

/-- Directories by the one that they lie in. -/
def rooms : List (List String × List String) :=
  [([], ["boot", "dev", "etc", "home", "media", "mnt", "opt", "proc", "root", "run", "srv", "sys",
      "tmp", "usr", "var"]),
    (["dev"], ["pts", "shm"]),
    (["proc"], ["self"]),
    (["proc", "self"], ["fd"]),
    (["run"], ["lock"]),
    (["usr"], ["bin", "games", "include", "lib", "lib64", "libexec", "local", "sbin", "share", "src"]),
    (["usr", "local"], ["bin", "etc", "games", "include", "lib", "sbin", "share", "src"]),
    (["var"], ["backups", "cache", "lib", "local", "log", "mail", "opt", "spool", "tmp"]),
    (["tmp"], ["bench"])]

def directories : List Location :=
  rooms.flatMap fun r => r.2.map fun name => location (r.1 ++ [name])

def links : List (List String × String) :=
  [(["bin"], "usr/bin"), (["lib"], "usr/lib"), (["lib64"], "usr/lib64"), (["sbin"], "usr/sbin"),
    (["dev", "fd"], "/proc/self/fd"), (["var", "lock"], "/run/lock"), (["var", "run"], "/run")]

def devices : List (String × Device) :=
  [("null", .null), ("zero", .zero), ("full", .full), ("random", .zero), ("urandom", .zero),
    ("tty", .terminal)]

def records : List (List String × Bytes) :=
  [(["etc", "hostname"], Utf8.ofText "bench\n"),
    (["etc", "hosts"], Utf8.ofText "127.0.0.1\tlocalhost\n"),
    (["etc", "passwd"], Chars.toBytes (User.all.flatMap User.line))]

/-- The bench before anything is put into its working directory. -/
def bench : FileSystem where
  entries :=
    directories.map (fun d => (d, Entry.directory))
      ++ links.map (fun l => (location l.1, Entry.link (Utf8.ofText l.2)))
      ++ devices.map (fun d => (location ["dev", d.1], Entry.device d.2))
      ++ tools.map (fun t => (location ["usr", "bin", t], Entry.program t))
      ++ records.zipIdx.map (fun r => (location r.1.1, Entry.file r.2 false))
  contents := records.zipIdx.map fun r => (r.2, r.1.2)
  fresh := records.length
  workingDirectory := location ["tmp", "bench"]

inductive Item where
  | directory (path : Path)
  | link (path : Path) (target : Bytes)
  | file (path : Path) (content : Bytes) (executable : Bool)
deriving DecidableEq, Repr

def parentOf (p : Path) : Path := ((Path.ancestors p).head?).getD []

/-- Puts an item in place, with the directories above it. -/
def place (fs : FileSystem) : Item → FileSystem
  | .directory p => (fs.makeDirectories p).2
  | .link p target =>
    let ready := (fs.makeDirectories (parentOf p)).2
    match ready.locateName p with
    | .ok spot => ready.put spot.location (.link target)
    | .error _ => ready
  | .file p content executable =>
    let ready := (fs.makeDirectories (parentOf p)).2
    match ready.openWrite p with
    | .ok (.file id, opened) =>
      let written := opened.write id content
      match written.locate .follow p with
      | .ok spot => written.put spot.location (.file id executable)
      | .error _ => written
    | _ => ready

def placeAll (fs : FileSystem) (items : List Item) : FileSystem := items.foldl place fs

inductive Shown where
  | directory
  | link (target : Bytes)
  | file (content : Bytes)
deriving DecidableEq, Repr

def bytesBefore : Bytes → Bytes → Bool
  | [], _ => true
  | _ :: _, [] => false
  | a :: as, b :: bs => a < b || (a == b && bytesBefore as bs)

def shown (fs : FileSystem) : Entry → Shown
  | .directory => .directory
  | .link target => .link target
  | .file id _ => .file (fs.content id)
  | .device _ => .file []
  | .program _ => .file []

/-- Everything below the working directory, by the order of the paths. -/
def listing (fs : FileSystem) : List (Path × Shown) :=
  let here := fs.workingDirectory
  let below := fs.entries.filter fun t => here.isPrefixOf t.1 && here != t.1
  let named := below.map fun t =>
    (Text.joinWith [Path.slash] (t.1.drop here.length), fs.shown t.2)
  named.mergeSort fun a b => bytesBefore a.1 b.1

end TestBench.FileSystem
