import ClassicIcons.Disk.Storage

/-! Disks as values.

A disk is a directory, the top, and what lies below it: files and directories,
each at a location. There are no links. A path is followed part by part, and
every part but the last must be a directory; nothing lies above the top. How long
names and paths can be is up to the disk.

`find?_put` says that putting something at a location changes what is there, and
nothing else. -/
namespace ClassicIcons

namespace Disk

/-- The names that lead from the top to a place. -/
abbrev Location := List String

inductive Entry where
  | directory
  | file (content : Bytes)
  deriving DecidableEq, Repr

/-- How many bytes a name can have, and a path, if there is a limit. -/
structure Limits where
  name : Option Nat
  path : Option Nat
  deriving DecidableEq, Repr

/-- The limits of most disks. -/
def Limits.usual : Limits := ⟨some 255, some 4095⟩

end Disk

structure Disk where
  /-- What is there, in the order in which it got there. -/
  entries : List (Disk.Location × Disk.Entry)
  limits : Disk.Limits := .usual
  deriving DecidableEq, Repr

namespace Disk

def empty : Disk := { entries := [] }

/-- What is at a location. -/
def find? (d : Disk) (l : Location) : Option Entry :=
  if l = [] then some .directory else d.entries.lookup l

/-- The disk with something else at a location. -/
def put (d : Disk) (l : Location) (e : Entry) : Disk :=
  match d.entries.lookup l with
  | some _ => { d with entries := d.entries.map fun (k, old) => if k = l then (k, e) else (k, old) }
  | none => { d with entries := d.entries ++ [(l, e)] }

theorem limits_put (d : Disk) (l : Location) (e : Entry) : (d.put l e).limits = d.limits := by
  unfold put
  split <;> rfl

theorem lookup_entry (k l : Location) (e : Entry) (entries : List (Location × Entry)) :
    ((k, e) :: entries).lookup l = if l = k then some e else entries.lookup l := by
  rw [List.lookup_cons]
  by_cases h : l = k
  · simp [h]
  · simp [h, beq_false_of_ne h]

theorem lookup_replace (entries : List (Location × Entry)) (l l' : Location) (e : Entry) :
    (entries.map fun (k, old) => if k = l then (k, e) else (k, old)).lookup l' =
      (entries.lookup l').map fun old => if l' = l then e else old := by
  induction entries with
  | nil => rfl
  | cons entry entries ih =>
    obtain ⟨k, old⟩ := entry
    rw [List.map_cons, lookup_entry]
    by_cases hk : k = l
    · subst hk
      rw [if_pos rfl, lookup_entry, ih]
      by_cases hl : l' = k <;> simp [hl]
    · rw [if_neg hk, lookup_entry, ih]
      by_cases hl : l' = k <;> simp [hl, hk]

theorem lookup_concat (entries : List (Location × Entry)) (l l' : Location) (e : Entry)
    (h : entries.lookup l = none) :
    (entries ++ [(l, e)]).lookup l' = if l' = l then some e else entries.lookup l' := by
  induction entries with
  | nil => exact lookup_entry l l' e []
  | cons entry entries ih =>
    obtain ⟨k, old⟩ := entry
    rw [lookup_entry] at h
    split at h
    · cases h
    · rename_i hk
      rw [List.cons_append, lookup_entry, lookup_entry, ih h]
      by_cases hl : l' = l
      · rw [hl, if_neg hk]
        simp
      · simp [hl]

/-- What is put at a location is found there, and nothing else changes. -/
theorem find?_put (d : Disk) {l : Location} (hl : l ≠ []) (l' : Location) (e : Entry) :
    (d.put l e).find? l' = if l' = l then some e else d.find? l' := by
  by_cases htop : l' = []
  · rw [htop, if_neg (Ne.symm hl)]
    rfl
  · rw [find?, if_neg htop, find?, if_neg htop, put]
    split
    · rename_i old hold
      rw [lookup_replace]
      by_cases h : l' = l
      · rw [h, hold]
        simp
      · simp [h]
    · rename_i hnone
      exact lookup_concat d.entries l l' e hnone

/-! ### Following paths -/

/-- Whether a text has more bytes than it can have. -/
def exceeds (text : String) (limit : Option Nat) : Bool := limit.any (· < text.utf8ByteSize)

def tooLong (d : Disk) (name : String) : Bool := exceeds name d.limits.name

/-- Why a path is refused before it is followed. -/
def fault? (d : Disk) (p : Path) : Option Fault :=
  if '\x00' ∈ p.text.toList then some .nulInPath
  else if p.text = "" then some .notFound
  else if exceeds p.text d.limits.path then some .nameTooLong
  else none

/-- Where the parts of a path lead from a location. -/
def follow (d : Disk) : Location → List String → Except Fault Location
  | l, [] => .ok l
  | l, part :: rest =>
    if d.find? l ≠ some .directory then .error .notDirectory
    else if part = "." then d.follow l rest
    else if part = ".." then d.follow l.dropLast rest
    else if d.tooLong part then .error .nameTooLong
    else if d.find? (l ++ [part]) = none then .error .notFound
    else d.follow (l ++ [part]) rest

/-- What a path leads to. -/
def look (d : Disk) (p : Path) : Except Fault Entry :=
  match d.fault? p with
  | some fault => .error fault
  | none => do
    match d.find? (← d.follow [] p.parts) with
    | none => .error .notFound
    | some .directory => .ok .directory
    | some (.file content) => if p.endsInSlash then .error .notDirectory else .ok (.file content)

/-- Where a new thing would be: the directory that a path leads into, and the last
part of the path, if it has one. -/
def place (d : Disk) (p : Path) : Except Fault (Location × Option String) :=
  match d.fault? p with
  | some fault => .error fault
  | none => do
    let into ← d.follow [] p.parts.dropLast
    if d.find? into = some .directory then .ok (into, p.parts.getLast?)
    else .error .notDirectory

/-- Whether a last part names something of its own. -/
def isName (part : String) : Bool := part ≠ "." && part ≠ ".."

/-! ### Operations -/

def readFile (d : Disk) (p : Path) : Except Fault Bytes := do
  match ← d.look p with
  | .directory => .error .isDirectory
  | .file content => .ok content

def isDirectory (d : Disk) (p : Path) : Bool :=
  match d.look p with
  | .ok .directory => true
  | _ => false

def makeDirectory (d : Disk) (p : Path) : Except Fault Disk := do
  match ← d.place p with
  | (_, none) => .error .alreadyExists
  | (into, some name) =>
    if !isName name then .error .alreadyExists
    else if d.tooLong name then .error .nameTooLong
    else match d.find? (into ++ [name]) with
      | some _ => .error .alreadyExists
      | none => .ok (d.put (into ++ [name]) .directory)

def writeFile (d : Disk) (p : Path) (content : Bytes) : Except Fault Disk := do
  match ← d.place p with
  | (_, none) => .error .isDirectory
  | (into, some name) =>
    if !isName name || p.endsInSlash then .error .isDirectory
    else if d.tooLong name then .error .nameTooLong
    else if d.find? (into ++ [name]) = some .directory then .error .isDirectory
    else .ok (d.put (into ++ [name]) (.file content))

/-- Leaves a disk as it is if an operation fails. -/
def attempt (op : Disk → Except Fault Disk) : StateM Disk (Except Fault Unit) := fun d =>
  match op d with
  | .ok d' => (.ok (), d')
  | .error fault => (.error fault, d)

instance : Storage (StateM Disk) where
  readFile p := fun d => (d.readFile p, d)
  isDirectory p := fun d => (d.isDirectory p, d)
  makeDirectory p := attempt fun d => d.makeDirectory p
  writeFile p content := attempt fun d => d.writeFile p content

end Disk
end ClassicIcons
