import CanonicalText.Command.World.Tree

/-!
# The files of a system

What every system has besides the files of its users: the usual directories, links between them, and the
files that stand for devices and for the program itself. The program works in a directory of its own among
those for temporary files.

* `systemTree` : the tree of all of it;
* `World.ofFiles` : the world in a working directory with given files.
-/

namespace CanonicalText

def systemDirectories : List String :=
  ["/boot", "/dev/pts", "/dev/shm", "/etc", "/home", "/media", "/mnt", "/opt", "/proc/self/task", "/root",
    "/run/lock", "/srv", "/sys", "/tmp", "/usr/bin", "/usr/games", "/usr/include", "/usr/lib",
    "/usr/lib64", "/usr/local/bin", "/usr/local/etc", "/usr/local/games", "/usr/local/include",
    "/usr/local/lib", "/usr/local/sbin", "/usr/local/share", "/usr/local/src", "/usr/sbin", "/usr/share",
    "/usr/src", "/var/cache", "/var/lib", "/var/local", "/var/log", "/var/mail", "/var/opt", "/var/spool",
    "/var/tmp"]

def systemLinks : List (String × String) :=
  [("/bin", "/usr/bin"), ("/sbin", "/usr/sbin"), ("/lib", "/usr/lib"), ("/lib64", "/usr/lib64"),
    ("/var/run", "/run"), ("/var/lock", "/run/lock"), ("/dev/fd", "/proc/self/fd"),
    ("/dev/stdin", "/proc/self/fd/0"), ("/proc/self/root", "/")]

/-- Files that are no texts, and texts that are not the same on every system. -/
def unreadableFiles : List String :=
  ["/dev/tty", "/etc/group", "/etc/hostname", "/etc/hosts", "/etc/os-release", "/etc/passwd",
    "/proc/cpuinfo", "/proc/meminfo", "/proc/self/exe", "/proc/self/status", "/proc/version",
    "/usr/bin/cat", "/usr/bin/env", "/usr/bin/ls", "/usr/bin/sh"]

/-- The name of a directory that no path can name. -/
def privateName : Text := []

/-- The working directory. Its own name is not known. -/
def workingDirectory : List Text := ["tmp".toList, privateName]

def systemTree : Tree :=
  (systemDirectories.map fun path => (namesOf path.toList, .directory)) ++
    (systemLinks.map fun link => (namesOf link.1.toList, .link (namesOf link.2.toList))) ++
    (unreadableFiles.map fun path => (namesOf path.toList, .entry .unreadable)) ++
    [(namesOf "/dev/null".toList, .entry (.file .empty)),
      (namesOf "/proc/self/fd/0".toList, .entry .standardInput),
      (namesOf "/proc/self/cwd".toList, .link workingDirectory),
      (workingDirectory, .directory)]

/-- The world in a working directory that holds the given files. -/
def World.ofFiles (files : List (Text × ByteArray)) (standardInput : ByteArray)
    (bindings : List (String × Text)) : World :=
  let own : Tree := files.map fun f => (workingDirectory ++ namesOf f.1, .entry (.file f.2))
  ⟨(own ++ systemTree).entry workingDirectory, standardInput, fun name => bindings.lookup name, .brief⟩

def standardInputPaths : List String := ["/dev/stdin", "/dev/fd/0", "/proc/self/fd/0"]

end CanonicalText
