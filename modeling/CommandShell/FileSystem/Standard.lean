import CommandShell.FileSystem.Basic

/-!
# A standard file system

The directories that every system has, the three programs that scripts rely on, the null device, and
the places that stand for the descriptors of a process. The programs are known by their places; what
their files hold is only the mark of an executable.
-/

namespace CommandShell.FileSystem

/-- The mark at the start of a compiled program. -/
def programMark : ByteArray := pack [0x7F, 0x45, 0x4C, 0x46]

/-- Fill a place, and make the directories that lead to it where they are missing. -/
def plant (fs : FileSystem) (place : Place) (node : Node) : FileSystem :=
  let parents := (List.range place.length).map fun n => place.take n
  let fs := parents.foldl (fun fs p => if fs.get? p = none then fs.set p .dir else fs) fs
  fs.set place node

/-- The file system of a fresh machine. -/
def standard : FileSystem :=
  let dirs :=
    ["dev", "etc", "home", "media", "mnt", "opt", "proc", "root", "run", "srv", "sys", "tmp",
      "usr", "var"]
  let programs := ["cat", "sh", "sleep"].map fun p =>
    (["usr", "bin", p], Node.file programMark true)
  let links := ["bin", "lib", "sbin"].map fun d => ([d], Node.link ("usr/" ++ d))
  let descriptors :=
    [("stdin", "0"), ("stdout", "1"), ("stderr", "2")].flatMap fun (name, number) =>
    [(["dev", name], Node.link ("/proc/self/fd/" ++ number)),
      (["proc", "self", "fd", number], .null)]
  let nodes := dirs.map (fun d => ([d], Node.dir)) ++ programs ++ links ++ descriptors ++
    [(["dev", "null"], .null), (["dev", "fd"], .link "/proc/self/fd"), (["usr", "lib"], .dir),
      (["usr", "sbin"], .dir)]
  nodes.foldl (fun fs (place, node) => fs.plant place node) {}

end CommandShell.FileSystem
