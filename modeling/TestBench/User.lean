import TestBench.Text.Chars
import TestBench.Text.Decimal
import TestBench.Text.Split
/-!
# Users

The users that a bench knows by name, and the lines that record them.
-/
namespace TestBench

structure User where
  name : String
  number : Nat
  group : Nat
  remark : String
  home : String
  shell : String
deriving DecidableEq, Repr

namespace User

def noLogin : String := "/usr/sbin/nologin"

/-- A user that stands for a part of the system: its group has its own number. -/
def service (name : String) (number : Nat) (home : String) : User :=
  ⟨name, number, number, name, home, noLogin⟩

def all : List User :=
  [⟨"root", 0, 0, "root", "/root", "/bin/bash"⟩,
    service "daemon" 1 "/usr/sbin",
    service "bin" 2 "/bin",
    service "sys" 3 "/dev",
    ⟨"sync", 4, 65534, "sync", "/bin", "/bin/sync"⟩,
    ⟨"games", 5, 60, "games", "/usr/games", noLogin⟩,
    ⟨"man", 6, 12, "man", "/var/cache/man", noLogin⟩,
    service "lp" 7 "/var/spool/lpd",
    service "mail" 8 "/var/mail",
    service "news" 9 "/var/spool/news",
    service "uucp" 10 "/var/spool/uucp",
    service "proxy" 13 "/bin",
    service "www-data" 33 "/var/www",
    service "backup" 34 "/var/backups",
    ⟨"list", 38, 38, "Mailing List Manager", "/var/list", noLogin⟩,
    ⟨"irc", 39, 39, "ircd", "/run/ircd", noLogin⟩,
    ⟨"_apt", 42, 65534, "", "/nonexistent", noLogin⟩,
    ⟨"nobody", 65534, 65534, "nobody", "/nonexistent", noLogin⟩]

def home? (name : Chars) : Option Chars :=
  (all.find? fun u => str u.name = name).map fun u => str u.home

def line (u : User) : Chars :=
  let number := fun (n : Nat) => Decimal.render n
  Text.joinWith [':']
    [str u.name, ['x'], number u.number, number u.group, str u.remark, str u.home, str u.shell] ++ ['\n']

end User
end TestBench
