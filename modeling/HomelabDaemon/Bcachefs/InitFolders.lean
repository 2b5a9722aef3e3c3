import HomelabDaemon.FileTree.Calls
import HomelabDaemon.Utf8

/-!
# The layout of a pool

`InitFolders` makes the folders of a pool and gives each of their trees an owner and modes. The
modes are octal numbers as for `chmod`, but a file mode of Go has the setgid bit elsewhere.
-/

namespace HomelabDaemon.Bcachefs.InitFolders
open FileTree
open Filepath (Path)

structure Attr where
  uid : Nat
  gid : Nat
  mode : UInt32
  deriving DecidableEq

abbrev Tree := Node Attr

def modeSetuid : UInt32 := (1 : UInt32) <<< 23

def modeSetgid : UInt32 := (1 : UInt32) <<< 22

def modeSticky : UInt32 := (1 : UInt32) <<< 20

/-- What `os.Chmod` and `os.MkdirAll` take from a file mode. -/
def syscallMode (mode : UInt32) : UInt32 :=
  (mode &&& 0o777) ||| (if mode &&& modeSetuid ≠ 0 then 0o4000 else 0) ||| (if mode &&& modeSetgid ≠ 0 then 0o2000
    else 0) |||
    (if mode &&& modeSticky ≠ 0 then 0o1000 else 0)

def chown (uid gid : Nat) : Item Attr → Item Attr := Item.map fun attr => { attr with uid, gid }

def chmod (mode : UInt32) : Item Attr → Item Attr := Item.map fun attr => { attr with mode := syscallMode mode }

/-- A new directory is of the group of a directory with the setgid bit, and has that bit too. -/
def made (umask mode : UInt32) (own : Attr) : Attr :=
  if own.mode &&& 0o2000 = 0 then { uid := 0, gid := 0, mode := syscallMode mode &&& ~~~umask }
  else { uid := 0, gid := own.gid, mode := (syscallMode mode &&& ~~~umask) ||| 0o2000 }

/-- `bcachefs subvolume create` makes a directory if it accepts the path. -/
structure Host where
  groups : String → Option Nat
  umask : UInt32
  accepts : Tree → Place → Bool
  subvolume : Attr → Attr

namespace Host

def lookupGid (h : Host) (group : String) : Option Nat :=
  if group = "root" then some 0 else h.groups group

def createSubvolume (h : Host) (n : Tree) (path : Place) : Option Tree :=
  if h.accepts n path then (n.mkdir h.subvolume path).toOption else none

end Host

structure Entry where
  path : String
  isSubvolume : Bool
  group : String
  dirMode : UInt32
  fileMode : UInt32

def text (s : String) : Path := Utf8.encode s.toList

def Entry.names (e : Entry) : Place := Filepath.names (text e.path)

def Entry.full (mountpoint : Place) (e : Entry) : Place := mountpoint ++ e.names

def entries : List Entry := [
  ⟨"media", true, "media", 0o2770, 0o660⟩,
  ⟨"immich", true, "immich", 0o2770, 0o660⟩,
  ⟨"tmp", true, "users", 0o2770, 0o660⟩,
  ⟨"backups", true, "root", 0o0700, 0o600⟩,
  ⟨"media/library", false, "media", 0o2770, 0o660⟩,
  ⟨"media/library/movies", false, "media", 0o2770, 0o660⟩,
  ⟨"media/library/shows", false, "media", 0o2770, 0o660⟩,
  ⟨"media/library/music", false, "media", 0o2770, 0o660⟩,
  ⟨"media/library/books", false, "media", 0o2770, 0o660⟩,
  ⟨"media/library/audiobooks", false, "media", 0o2770, 0o660⟩,
  ⟨"media/qbittorrent", false, "media", 0o2770, 0o660⟩,
  ⟨"media/.incomplete", false, "media", 0o2770, 0o660⟩]

inductive Failure where
  | mediaGroup
  | group (name : String)
  | chown (path : Place) (e : Errno)
  | chmod (path : Place) (e : Errno)
  | stat (path : Place) (e : Errno)
  | createSubvolume (path : Place)
  | mkdir (path : Place) (e : Errno)
  | walk (path : Place) (e : Errno)

structure Outcome where
  failure : Option Failure
  tree : Tree

/-- The callback of `applyTreePerms`. -/
def perms (gid : Nat) (dirMode fileMode : UInt32) (i : Item Attr) : Item Attr :=
  match i with
  | .symlink target => .symlink target
  | .dir _ => chmod dirMode (chown 0 gid i)
  | .file _ => chmod fileMode (chown 0 gid i)

def applyTreePerms (n : Tree) (path : Place) (gid : Nat) (dirMode fileMode : UInt32) : Except Errno Tree :=
  n.walkTree (perms gid dirMode fileMode) path

/-- What is not there is made. -/
def ensure (h : Host) (e : Entry) (full : Place) (n : Tree) : Outcome :=
  match n.stat full with
  | .ok _ => ⟨none, n⟩
  | .error .noent =>
    if e.isSubvolume then
      match h.createSubvolume n full with
      | some n => ⟨none, n⟩
      | none => ⟨some (.createSubvolume full), n⟩
    else
      match Node.mkdirAll (made h.umask e.dirMode) full.reverse n with
      | (none, n) => ⟨none, n⟩
      | (some err, n) => ⟨some (.mkdir full err), n⟩
  | .error err => ⟨some (.stat full err), n⟩

/-- The body of the loop. -/
def initEntry (h : Host) (mountpoint : Place) (e : Entry) (n : Tree) : Outcome :=
  match h.lookupGid e.group with
  | none => ⟨some (.group e.group), n⟩
  | some gid =>
    match ensure h e (e.full mountpoint) n with
    | ⟨some failure, n⟩ => ⟨some failure, n⟩
    | ⟨none, n⟩ =>
      match applyTreePerms n (e.full mountpoint) gid e.dirMode e.fileMode with
      | .error err => ⟨some (.walk (e.full mountpoint) err), n⟩
      | .ok n => ⟨none, n⟩

def initEntries (h : Host) (mountpoint : Place) : List Entry → Tree → Outcome
  | [], n => ⟨none, n⟩
  | e :: rest, n =>
    match initEntry h mountpoint e n with
    | ⟨none, n⟩ => initEntries h mountpoint rest n
    | stopped => stopped

/-- A failure here is a warning only. -/
def dropLostFound (lostFound : Place) (n : Tree) : Tree :=
  match n.readDir lostFound with
  | .ok .nil =>
    match n.remove lostFound with
    | .ok n => n
    | .error _ => n
  | _ => n

/-- The mountpoint is the path of a directory from the root, without links. -/
def initFolders (h : Host) (mountpoint : Place) (n : Tree) : Outcome :=
  match h.lookupGid "media" with
  | none => ⟨some .mediaGroup, n⟩
  | some mediaGid =>
    match n.change (chown 0 mediaGid) mountpoint with
    | .error e => ⟨some (.chown mountpoint e), n⟩
    | .ok n =>
      match n.change (chmod 0o0751) mountpoint with
      | .error e => ⟨some (.chmod mountpoint e), n⟩
      | .ok n =>
        match initEntries h mountpoint entries n with
        | ⟨none, n⟩ => ⟨none, dropLostFound (mountpoint ++ [text "lost+found"]) n⟩
        | stopped => stopped

end HomelabDaemon.Bcachefs.InitFolders
